import TableCalc.Proofs.Evaluation.Justification

/-!
# The naive evaluator

An evaluator that keeps nothing: no memo and no trail. It finds the values of all operands from the
right to the left, evaluating every expression cell afresh whenever it is referred to, and then
applies the operators from the left to the right. On a cycle this has no end. `Naive.evaluateWithin`
follows it to a given depth of references and has no outcome if that is not deep enough;
`Naive.Ends` says that it comes to an end with an outcome, and there is one such outcome at most
(`Naive.Ends.unique`).

Where no cycle can be reached the naive evaluator ends, and with the same outcome as any evaluation
by the rules (`Justified.naive`). The rules leave a choice only at a reference to an expression
cell, and there they differ only in what they make of a circular reference, which does not arise
(`Justified.ne_circular`).
-/

namespace TableCalc.Evaluation
open Expression Relation

/-- A computation that may fail, and that need not come to an end. -/
abbrev NaiveM := ExceptT EvalError Option

namespace Naive

/-- The value of a referenced cell. -/
def resolve (raw : Grid) (evaluate : String → NaiveM Int64) (cell : Address) : NaiveM Int64 :=
  match raw[cell]? with
  | none => throw (.undefinedCell cell.name)
  | some (.number value) => return value
  | some (.text _) => throw (.textInExpression cell)
  | some (.error _) => throw (.propagated cell)
  | some (.expression source) => tryCatch (evaluate (normalize source)) fun _ =>
    throw (.propagated cell)

/-- The value of a lexeme in operand position. -/
def operand (resolve : Address → NaiveM Int64) (lexeme : String) : NaiveM Int64 := do
  match ← ofExcept (Token.classify lexeme) with
  | .number value => return value
  | .reference cell => resolve cell
  | .operator _ => throw .notEnoughOperands

/-- The value of the first operand, and those of the others each with the operator in front of it,
for the lexemes of an expression from the last to the first. -/
def operands (operand : String → NaiveM Int64) :
    List String → NaiveM (Int64 × List (Operator × Int64))
  | [] => throw .unfinishedExpression
  | [first] => return (← operand first, [])
  | last :: symbol :: earlier => do
    let value ← operand last
    let op ← ofExcept (operator symbol)
    let (first, steps) ← operands operand earlier
    return (first, steps ++ [(op, value)])

/-- The value of an expression: its operands first, then its operators from left to right. -/
def fold (operand : String → NaiveM Int64) (lexemes : List String) : NaiveM Int64 := do
  let (first, steps) ← operands operand lexemes
  ofExcept (steps.foldlM (fun lhs step => step.1.apply lhs step.2) first)

/-- The evaluation of an expression, with nested evaluations to a depth. -/
def evaluateWithin (raw : Grid) : (depth : Nat) → (expression : String) → NaiveM Int64
  | 0, _ => ExceptT.mk none
  | depth + 1, expression =>
    fold (operand (resolve raw (evaluateWithin raw depth))) (tokenize expression).reverse

/-- The naive evaluation of the expression comes to an end with this outcome. -/
def Ends (raw : Grid) (expression : String) (outcome : Outcome) : Prop :=
  ∃ enough, ∀ depth, enough ≤ depth → (evaluateWithin raw depth expression).run = some outcome

/-- An expression ends with one outcome at most. -/
lemma Ends.unique {raw e outcome outcome'} (h : Ends raw e outcome) (h' : Ends raw e outcome') :
    outcome = outcome' := by
  obtain ⟨enough, h⟩ := h
  obtain ⟨enough', h'⟩ := h'
  have first := h (max enough enough') (Nat.le_max_left _ _)
  have same := first.symm.trans (h' _ (Nat.le_max_right _ _))
  exact Option.some.inj same

/-- Two steps that may fail can be taken inside or outside. -/
lemma ofExcept_bind {α β} {x : Except EvalError α} {f : α → Except EvalError β} :
    (ofExcept (x >>= f) : NaiveM β) = ofExcept x >>= fun a => ofExcept (f a) := by
  cases x <;> rfl

/-- An expression of one lexeme has the value of this operand. -/
lemma fold_singleton {op : String → NaiveM Int64} {lexeme} : fold op [lexeme] = op lexeme := by
  have pure_eq {value : Int64} : (ofExcept (pure value : Except EvalError Int64) : NaiveM Int64) =
      pure value := rfl
  rw [fold, operands]
  simp only [bind_assoc, pure_bind, List.foldlM_nil, pure_eq, bind_pure]

/-- It makes no difference whether an operator is applied at once or after all operands have their
values. -/
lemma fold_cons {op : String → NaiveM Int64} {last symbol earlier} :
    fold op (last :: symbol :: earlier) = (do
      let rhs ← op last
      let o ← ofExcept (operator symbol)
      let lhs ← fold op earlier
      ofExcept (o.apply lhs rhs)) := by
  rw [fold, operands]
  simp only [fold, bind_assoc, pure_bind, List.foldlM_append, List.foldlM_cons, List.foldlM_nil,
    bind_pure, ofExcept_bind]

end Naive

/-- The outcome of the naive evaluator to a depth. -/
def Task.naive (raw : Grid) (depth : Nat) : Task → Option Outcome
  | .cell _ e => (Naive.evaluateWithin raw depth e).run
  | .fold lexemes =>
    (Naive.fold (Naive.operand (Naive.resolve raw (Naive.evaluateWithin raw depth))) lexemes).run
  | .operand lexeme =>
    (Naive.operand (Naive.resolve raw (Naive.evaluateWithin raw depth)) lexeme).run
  | .reference z => (Naive.resolve raw (Naive.evaluateWithin raw depth) z).run

/-- No cycle of the reference graph can be reached from the task. -/
def Task.Acyclic (raw : Grid) : Task → Prop
  | .cell _ e => ∀ z, Mentions e z → TableCalc.Acyclic raw z
  | .fold lexemes => ∀ lexeme ∈ lexemes, ∀ z, Token.classify lexeme = .ok (.reference z) →
    TableCalc.Acyclic raw z
  | .operand lexeme => ∀ z, Token.classify lexeme = .ok (.reference z) → TableCalc.Acyclic raw z
  | .reference z => TableCalc.Acyclic raw z

variable {raw : Grid}

namespace Task.Acyclic

/-- If a cell reaches no cycle, neither do its lexemes. -/
lemma fold {z e} (h : (Task.cell z e).Acyclic raw) : (Task.fold (tokenize e).reverse).Acyclic raw :=
  fun lexeme hmem z hc => h z ⟨lexeme, List.mem_reverse.1 hmem, hc⟩

/-- If some lexemes reach no cycle, neither does the last of them. -/
lemma operand {last earlier} (h : (Task.fold (last :: earlier)).Acyclic raw) :
    (Task.operand last).Acyclic raw :=
  h last (by simp)

/-- If some lexemes reach no cycle, neither do those before the last operator. -/
lemma earlier {last symbol earlier} (h : (Task.fold (last :: symbol :: earlier)).Acyclic raw) :
    (Task.fold earlier).Acyclic raw :=
  fun lexeme hmem => h lexeme (by simp [hmem])

/-- If an operand reaches no cycle, neither does the cell that it refers to. -/
lemma reference {lexeme z} (h : (Task.operand lexeme).Acyclic raw)
    (hc : Token.classify lexeme = .ok (.reference z)) :
    (Task.reference z).Acyclic raw :=
  h z hc

/-- If a cell reaches no cycle by reference, neither does its expression. -/
lemma cell {z e} (h : (Task.reference z).Acyclic raw) (hz : Holds raw z e) :
    (Task.cell z e).Acyclic raw :=
  fun _ mentions => TableCalc.Acyclic.of_references h ⟨e, hz, mentions⟩

end Task.Acyclic

/-- To a reference, every failure but a circular reference is an error of the cell alone. -/
lemma mapError_seenFrom {outcome : Outcome} {z : Address}
    (h : ∀ y, outcome ≠ .error (.circularReference y)) :
    outcome.mapError (·.seenFrom z) = outcome.mapError fun _ => .propagated z := by
  cases outcome with
  | ok value => rfl
  | error e =>
    cases e with
    | circularReference y => exact absurd rfl (h y)
    | _ => rfl

/-- An error that is passed on is no circular reference. -/
lemma mapError_propagated_ne_circular {outcome : Outcome} {z y : Address} :
    (outcome.mapError fun _ => EvalError.propagated z) ≠ .error (.circularReference y) := by
  cases outcome <;> simp [Except.mapError]

/-- Where no cycle can be reached, no outcome is a circular reference. -/
lemma Justified.ne_circular {task outcome} (justified : Justified raw task outcome)
    (acyclic : task.Acyclic raw) :
    ∀ z, outcome ≠ .error (.circularReference z) := by
  induction justified with
  | cell _ ih => exact ih acyclic.fold
  | unfinished => nofun
  | first _ ih => exact ih acyclic.operand
  | operandFails _ ih => exact ih acyclic.operand
  | operatorFails _ hop _ =>
    rintro z ⟨⟩
    cases operator_error hop
  | @step _ _ _ rhs op outcome _ _ _ _ ihEarlier =>
    cases outcome with
    | error e => exact ihEarlier acyclic.earlier
    | ok lhs => exact fun z happly => nomatch Operator.apply_error happly
  | unknown h =>
    rintro z ⟨⟩
    cases Token.classify_error h
  | literal _ => nofun
  | misplaced _ => nofun
  | reference h _ ih => exact ih (acyclic.reference h)
  | undefined _ => nofun
  | @plain _ given _ _ hseen => cases given <;> cases hseen <;> nofun
  | circular _ cycle => exact absurd cycle (TableCalc.Acyclic.not_reaches_self acyclic)
  | nested hz _ ih =>
    rw [mapError_seenFrom (ih (acyclic.cell hz))]
    exact fun _ => mapError_propagated_ne_circular
  | remembered _ _ _ => exact fun _ => mapError_propagated_ne_circular

section
variable {depth : Nat}

/-- An expression of one operand comes to what the operand comes to. -/
lemma naive_first {lexeme outcome} (h : (Task.operand lexeme).naive raw depth = some outcome) :
    (Task.fold [lexeme]).naive raw depth = some outcome := by
  rw [Task.naive, Naive.fold_singleton]
  exact h

/-- If the last operand fails, so does the expression. -/
lemma naive_operandFails {last symbol earlier e}
    (h : (Task.operand last).naive raw depth = some (.error e)) :
    (Task.fold (last :: symbol :: earlier)).naive raw depth = some (.error e) := by
  simp only [Task.naive] at h ⊢
  rw [Naive.fold_cons, ExceptT.run_bind, h]
  rfl

/-- If there is no operator in front of the last operand, the expression fails. -/
lemma naive_operatorFails {last symbol earlier rhs e}
    (h : (Task.operand last).naive raw depth = some (.ok rhs)) (hop : operator symbol = .error e) :
    (Task.fold (last :: symbol :: earlier)).naive raw depth = some (.error e) := by
  simp only [Task.naive] at h ⊢
  rw [Naive.fold_cons, ExceptT.run_bind, h, hop]
  rfl

/-- Otherwise the operator is applied to what the lexemes before it come to. -/
lemma naive_step {last symbol earlier rhs op outcome}
    (h : (Task.operand last).naive raw depth = some (.ok rhs))
    (hop : operator symbol = .ok op)
    (hearlier : (Task.fold earlier).naive raw depth = some outcome) :
    (Task.fold (last :: symbol :: earlier)).naive raw depth =
      some (outcome >>= (op.apply · rhs)) := by
  simp only [Task.naive] at h hearlier ⊢
  rw [Naive.fold_cons, ExceptT.run_bind, h, hop]
  show (Naive.fold _ earlier >>= fun lhs => ofExcept (op.apply lhs rhs)).run = _
  rw [ExceptT.run_bind, hearlier]
  cases outcome with
  | error e => rfl
  | ok lhs =>
    show (ofExcept (op.apply lhs rhs) : NaiveM Int64).run = some (op.apply lhs rhs)
    cases op.apply lhs rhs <;> rfl

/-- A reference comes to what the expression of its cell comes to, with failures passed on. -/
lemma naive_reference {z e outcome} (hz : Holds raw z e)
    (h : (Task.cell z e).naive raw depth = some outcome) :
    (Task.reference z).naive raw depth = some (outcome.mapError fun _ => .propagated z) := by
  obtain ⟨source, hsource, rfl⟩ := hz
  simp only [Task.naive] at h ⊢
  simp only [Naive.resolve, hsource, ExceptT.run_tryCatch, h]
  cases outcome <;> rfl

end

/-- Where no cycle can be reached, the naive evaluator ends with the outcome that the rules allow.
-/
theorem Justified.naive {task outcome} (justified : Justified raw task outcome)
    (acyclic : task.Acyclic raw) :
    ∃ enough, ∀ depth, enough ≤ depth → task.naive raw depth = some outcome := by
  induction justified with
  | cell _ ih =>
    obtain ⟨enough, h⟩ := ih acyclic.fold
    -- the expression itself takes one level
    refine ⟨enough + 1, fun depth hdepth => ?_⟩
    cases depth with
    | zero => omega
    | succ depth => exact h depth (by omega)
  | unfinished => exact ⟨0, fun _ _ => rfl⟩
  | first _ ih =>
    obtain ⟨enough, h⟩ := ih acyclic.operand
    exact ⟨enough, fun depth hdepth => naive_first (h depth hdepth)⟩
  | operandFails _ ih =>
    obtain ⟨enough, h⟩ := ih acyclic.operand
    exact ⟨enough, fun depth hdepth => naive_operandFails (h depth hdepth)⟩
  | operatorFails _ hop ih =>
    obtain ⟨enough, h⟩ := ih acyclic.operand
    exact ⟨enough, fun depth hdepth => naive_operatorFails (h depth hdepth) hop⟩
  | step _ hop _ ih ihEarlier =>
    obtain ⟨enough, h⟩ := ih acyclic.operand
    obtain ⟨enough', hearlier⟩ := ihEarlier acyclic.earlier
    refine ⟨max enough enough', fun depth hdepth => ?_⟩
    obtain ⟨hle, hle'⟩ := Nat.max_le.1 hdepth
    exact naive_step (h depth hle) hop (hearlier depth hle')
  | unknown h => exact ⟨0, fun _ _ => by simp only [Task.naive, Naive.operand, h]; rfl⟩
  | literal h => exact ⟨0, fun _ _ => by simp only [Task.naive, Naive.operand, h]; rfl⟩
  | misplaced h => exact ⟨0, fun _ _ => by simp only [Task.naive, Naive.operand, h]; rfl⟩
  | reference h _ ih =>
    obtain ⟨enough, hreference⟩ := ih (acyclic.reference h)
    refine ⟨enough, fun depth hdepth => ?_⟩
    simp only [Task.naive, Naive.operand, h]
    exact hreference depth hdepth
  | undefined h => exact ⟨0, fun _ _ => by simp only [Task.naive, Naive.resolve, h]; rfl⟩
  | @plain _ given _ h hseen =>
    refine ⟨0, fun _ _ => ?_⟩
    simp only [Task.naive, Naive.resolve, h]
    cases given <;> cases hseen <;> rfl
  | circular _ cycle => exact absurd cycle (TableCalc.Acyclic.not_reaches_self acyclic)
  | nested hz justified ih =>
    obtain ⟨enough, h⟩ := ih (acyclic.cell hz)
    -- seen from the reference, a failure that is not circular is the same fresh or remembered
    rw [mapError_seenFrom (justified.ne_circular (acyclic.cell hz))]
    exact ⟨enough, fun depth hdepth => naive_reference hz (h depth hdepth)⟩
  | remembered hz _ ih =>
    obtain ⟨enough, h⟩ := ih (acyclic.cell hz)
    exact ⟨enough, fun depth hdepth => naive_reference hz (h depth hdepth)⟩

end TableCalc.Evaluation
