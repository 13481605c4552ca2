import TableCalc.Proofs.Evaluation.Adequacy
import TableCalc.Proofs.Evaluation.Valued
import TableCalc.Proofs.Expression.Lexeme

/-!
# The two phases of an evaluation

The fold of an expression goes down to the first operand and comes back with the arithmetic, so the
two are interleaved in it. They can be told apart: `gather` resolves the operands from the last to
the first and does no arithmetic, and `Operands.value` does the arithmetic over the integers from
the first to the last and resolves nothing. One after the other, they have the outcome of the fold
and leave the same evaluation behind (`fold_eq_twoPhase`).

The induction is on the lexemes that are still to be gathered. The operands that are gathered
already are passed along, and what they add to the outcome is the rest of the arithmetic
(`run_gather`).
-/

namespace TableCalc

instance : DecidablePred Fits := fun _ => inferInstanceAs (Decidable (_ ∧ _))

/-- The operator that a lexeme is written as. It does not matter which one it is for a lexeme that
is no operator. -/
def Operator.ofLexeme (lexeme : String) : Operator := (lexeme.toList.head?.bind ofSymbol?).getD .add

/-- The failure comes from an operator and not from an operand. -/
def EvalError.IsArithmetic (e : EvalError) : Prop := e = .divisionByZero ∨ e = .overflow

namespace Evaluation
open Expression

/-- The operands of an expression: the first one, and the others with the operators in front of
them. -/
structure Operands where
  first : Int64
  later : List (Operator × Int64)

/-- The first phase: resolves the operands of the lexemes, given from the last to the first. An
operand is due first, and then an operator and an operand in turn; `later` are the operands that
have been resolved already. -/
def gather (operand : String → EvalM Int64) :
    (lexemes : List String) → (later : List (Operator × Int64)) → EvalM Operands
  | [], _ => throw .unfinishedExpression
  | [first], later => do return ⟨← operand first, later⟩
  | last :: symbol :: earlier, later => do
    let rhs ← operand last
    gather operand earlier ((.ofLexeme symbol, rhs) :: later)

/-- The second phase: folds operands from left to right over the integers. The first result that
does not exist or is out of range ends the fold. -/
def foldExact : (n : Int) → (later : List (Operator × Int64)) → Except EvalError Int
  | n, [] => .ok n
  | n, (op, rhs) :: later =>
    match op.exactValue? n rhs.toInt with
    | none => .error .divisionByZero
    | some m => if Fits m then foldExact m later else .error .overflow

/-- The value of operands, by the second phase. -/
def Operands.value (operands : Operands) : Except EvalError Int :=
  foldExact operands.first.toInt operands.later

/-- The two phases one after the other. -/
def twoPhase (operand : String → EvalM Int64) (lexemes : List String) (s : Evaluation) :
    Except EvalError Int × Evaluation :=
  let (operands, t) := (gather operand lexemes.reverse []).run.run s
  (operands >>= Operands.value, t)

variable {raw : Grid}

/-- An operator that is applied to 64-bit integers does one step of the second phase. -/
lemma foldExact_cons {n rhs : Int64} {op : Operator} {later : List (Operator × Int64)} :
    foldExact n.toInt ((op, rhs) :: later) = op.apply n rhs >>= fun m =>
      foldExact m.toInt later := by
  rw [foldExact, Operator.apply]
  cases op.exactValue? n.toInt rhs.toInt with
  | none => rfl
  | some m =>
    dsimp only
    by_cases fits : Fits m
    · obtain ⟨value, rfl⟩ := fits_iff.1 fits
      rw [if_pos fits, Operator.fit_eq_ok_iff.2 rfl]
      rfl
    · have outside : ¬ (Int64.minValue.toInt ≤ m ∧ m ≤ Int64.maxValue.toInt) := fits
      rw [if_neg fits, Operator.fit, dif_neg outside]
      rfl

/-- Each operator is read from the lexeme that stands for it. -/
lemma ofLexeme_of_operator {symbol : String} {op : Operator} (h : operator symbol = .ok op) :
    Operator.ofLexeme symbol = op := by
  rw [Operator.ofLexeme, operator_eq_ok_iff.1 h]
  simp

/-- Only runs of characters between operators are operands with a value. -/
lemma isRun_of_operand {resolve : Address → EvalM Int64} {lexeme value s t}
    (h : (operand resolve lexeme).run.run s = (.ok value, t)) : IsRun lexeme.toList := by
  unfold operand at h
  rw [run_bind, run_ofExcept] at h
  cases hc : Token.classify lexeme with
  | error e =>
    rw [hc] at h
    cases h
  | ok token =>
    rw [hc] at h
    cases token with
    | number value => exact isRun_of_isNumeral (Token.classify_number_iff.1 hc).1
    | reference z => exact isRun_of_classify hc
    | operator op => cases h

/-- What the first phase does with three or more lexemes. -/
lemma run_gather_cons {operand : String → EvalM Int64} {last symbol earlier later}
    {s : Evaluation} :
    (gather operand (last :: symbol :: earlier) later).run.run s =
      match (operand last).run.run s with
      | (.error e, t) => (.error e, t)
      | (.ok rhs, t) => (gather operand earlier ((.ofLexeme symbol, rhs) :: later)).run.run t := by
  rw [gather, run_bind]
  rcases (operand last).run.run s with ⟨_ | _, t⟩ <;> rfl

/-- The operands gathered from the remaining lexemes and the ones before come to what the fold of
the lexemes and the arithmetic with the ones before come to. -/
lemma run_gather {resolve : Address → EvalM Int64} {e : String} {lexemes after : List String}
    {s : Evaluation}
    (later : List (Operator × Int64)) (split : tokenize e = lexemes.reverse ++ after) :
    (((gather (operand resolve) lexemes later).run.run s).1 >>= Operands.value,
      ((gather (operand resolve) lexemes later).run.run s).2) =
    (((foldReversed (operand resolve) lexemes).run.run s).1 >>= fun n => foldExact n.toInt later,
      ((foldReversed (operand resolve) lexemes).run.run s).2) := by
  induction lexemes using foldReversed.induct generalizing later s after with
  | case1 => rfl
  | case2 first =>
    rw [gather, foldReversed, run_bind]
    rcases (operand resolve first).run.run s with ⟨_ | _, t⟩ <;> rfl
  | case3 last symbol earlier ih =>
    rw [run_gather_cons, run_foldReversed_cons]
    rcases hlast : (operand resolve last).run.run s with ⟨_ | rhs, t⟩
    · rfl
    -- the last lexeme has a value, so the one in front of it is an operator
    have split' : tokenize e = earlier.reverse ++ symbol :: last :: after := by simp [split]
    obtain ⟨op, hsymbol⟩ := operator_before_run split' (isRun_of_operand hlast)
    have hop : operator symbol = .ok op := operator_eq_ok_iff.2 hsymbol
    simp only [hop, ofLexeme_of_operator hop, ih _ split']
    rcases (foldReversed (operand resolve) earlier).run.run t with ⟨_ | n, u⟩
    · rfl
    · exact Prod.ext foldExact_cons rfl

/-- The two phases do what the fold does, whatever references are worth. -/
lemma twoPhase_eq {resolve : Address → EvalM Int64} {e : String} {s : Evaluation} :
    twoPhase (operand resolve) (tokenize e) s =
      (((foldReversed (operand resolve) (tokenize e).reverse).run.run s).1.map Int64.toInt,
        ((foldReversed (operand resolve) (tokenize e).reverse).run.run s).2) := by
  have split : tokenize e = (tokenize e).reverse.reverse ++ [] := by simp
  refine Eq.trans (run_gather [] split) (Prod.ext ?_ rfl)
  -- nothing comes after the last operand, so the rest of the arithmetic is to take the value as it
  -- is
  dsimp only
  cases ((foldReversed (operand resolve) (tokenize e).reverse).run.run s).1 <;> rfl

/-- An operand does not fail because of arithmetic. -/
lemma not_isArithmetic_of_operand {s : Evaluation} {lexeme e t}
    (run : Runs raw s (.operand lexeme) (.error e) t) :
    ¬ e.IsArithmetic := by
  have blameless : e.IsArithmetic → e.blamed? = none := by rintro (rfl | rfl) <;> rfl
  cases run with
  | unknown hc =>
    rcases Token.classify_error_cases hc with rfl | rfl | rfl <;> simp [EvalError.IsArithmetic]
  | misplaced _ => simp [EvalError.IsArithmetic]
  | reference _ run =>
    rcases run.reference_error_cases with rfl | blamed
    · simp [EvalError.IsArithmetic]
    · exact mt blameless blamed

/-- The first phase does no arithmetic. -/
lemma not_isArithmetic_of_gather {lexemes later e t} {s : Evaluation}
    (h : (gather (operand (resolve raw (evaluateAndStore raw))) lexemes later).run.run s =
      (.error e, t)) :
    ¬ e.IsArithmetic := by
  induction lexemes using foldReversed.induct generalizing later s with
  | case1 =>
    cases h
    simp [EvalError.IsArithmetic]
  | case2 first =>
    rw [gather, run_bind] at h
    rcases hfirst : (operand (resolve raw (evaluateAndStore raw)) first).run.run s with ⟨_ | _, u⟩
    all_goals
      rw [hfirst] at h
      cases h
    have run : Runs raw s (.operand first) _ _ := follows_operand_resolve
    rw [hfirst] at run
    exact not_isArithmetic_of_operand run
  | case3 last symbol earlier ih =>
    rw [run_gather_cons] at h
    have run : Runs raw s (.operand last) _ _ := follows_operand_resolve
    rcases hlast : (operand (resolve raw (evaluateAndStore raw)) last).run.run s with ⟨_ | rhs, u⟩
    all_goals rw [hlast] at h run
    · cases h
      exact not_isArithmetic_of_operand run
    · exact ih h

/-- The fold of an expression has the outcome of the two phases, and leaves the same evaluation
behind. If the first phase fails, its failure is the outcome, and it is no failure of an operator:
those come up only if every operand has a value. The evaluation of an expression for a cell is this
fold, between entering and leaving the cell. -/
theorem fold_eq_twoPhase (raw : Grid) (expression : String) (s : Evaluation) :
    let operand := operand (resolve raw (evaluateAndStore raw))
    let lexemes := tokenize expression
    (((foldLexemes raw lexemes).run.run s).1.map Int64.toInt,
      ((foldLexemes raw lexemes).run.run s).2) =
        twoPhase operand lexemes s ∧
      (∀ e t, (gather operand lexemes.reverse []).run.run s = (.error e, t) →
        (foldLexemes raw lexemes).run.run s = (.error e, t) ∧ ¬ e.IsArithmetic) ∧
      ∀ cell, (evaluateAndStore raw cell expression).run.run s =
        match (foldLexemes raw lexemes).run.run (s.enter cell) with
        | (outcome, t) => (outcome, t.leave cell outcome) := by
  intro operand lexemes
  have phases : (((foldLexemes raw lexemes).run.run s).1.map Int64.toInt,
      ((foldLexemes raw lexemes).run.run s).2) =
      twoPhase operand lexemes s := twoPhase_eq.symm
  refine ⟨phases, ?_, fun _ => run_evaluateAndStore⟩
  intro e t h
  refine ⟨?_, not_isArithmetic_of_gather h⟩
  rw [twoPhase, h] at phases
  rcases hfold : (foldLexemes raw lexemes).run.run s with ⟨_ | _, u⟩
  all_goals
    rw [hfold] at phases
    cases phases
  rfl

/-- The reference is resolved before anything is divided. -/
example : ((evaluateAndStore ∅ ⟨0, 0⟩ "B1+1/0").run.run { memo := ∅ }).1 =
    .error (.undefinedCell "B1") := by
  decide +kernel

end Evaluation

end TableCalc
