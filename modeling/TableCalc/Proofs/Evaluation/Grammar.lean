import TableCalc.Proofs.Evaluation.Termination
import TableCalc.Proofs.Expression.Lexeme

/-!
# The grammar of expressions

An expression is a term, or an expression, an operator and a term; a term is a numeral or a capital
letter and a digit (`Grammatical`). The evaluator knows nothing of this grammar: it cuts a text at
its operators and goes through the pieces from the right, and it may fail for another reason before
it has seen all of them. All the same, it recognizes the grammar. Only expressions have a value, and
no fault in their form is ever found in them (`evaluation_recognizes_grammar`).

The grammar is brought to the pieces first: a text is an expression if and only if its pieces, read
from the right, are terms and operators in turn (`grammatical_iff`). A run that ends in a value then
goes through such pieces by its rules, and a run through such pieces never comes to a rule for a
fault in their form.
-/

namespace TableCalc

namespace Expression

/-- A numeral, or a capital letter and a digit. -/
def IsTermShape (cs : List Char) : Prop := Text.IsNumeral cs ∨ Token.IsReferenceShape cs

/-- The expressions of the grammar. -/
inductive Grammatical : List Char → Prop where
  | term {cs} :
    IsTermShape cs →
    Grammatical cs
  | step {cs last} {op : Operator} :
    Grammatical cs →
    IsTermShape last →
    Grammatical (cs ++ op.symbol :: last)

/-- Terms and operators in turn, from the last lexeme to the first. -/
inductive InTurn : List String → Prop where
  | term {lexeme : String} :
    IsTermShape lexeme.toList →
    InTurn [lexeme]
  | step {last symbol : String} {earlier : List String} {op : Operator} :
    IsTermShape last.toList →
    symbol.toList = [op.symbol] →
    InTurn earlier →
    InTurn (last :: symbol :: earlier)

/-- A numeral or a reference is a run of characters without operators. -/
lemma IsTermShape.isRun {cs} (h : IsTermShape cs) : IsRun cs :=
  h.elim isRun_of_isNumeral isRun_of_isReferenceShape

/-- A numeral or a reference does not stand for an operator. -/
lemma IsTermShape.not_operator {lexeme op} (h : IsTermShape lexeme.toList) :
    Token.classify lexeme ≠ .ok (.operator op) := by
  intro hc
  refine h.isRun.not_isOperator ⟨op.symbol, ?_, Token.classify_operator_iff.1 hc⟩
  simp [Operator.isSymbol]

/-- A term that stands for no token is too large a numeral or names no cell. -/
lemma IsTermShape.classify_error_cases {lexeme e} (h : IsTermShape lexeme.toList)
    (hc : Token.classify lexeme = .error e) :
    e = .numberOutOfRange lexeme ∨ e = .undefinedCell lexeme := by
  unfold Token.classify at hc
  split at hc
  · split at hc <;> cases hc
    exact .inl rfl
  · rename_i numeral
    rw [if_pos (h.resolve_left numeral)] at hc
    split at hc <;> cases hc
    exact .inr rfl

/-- Terms and operators in turn are the lexemes of their text. -/
lemma InTurn.cut {lexemes} (h : InTurn lexemes) : Cut (lexemes.reverse.map String.toList) := by
  induction h with
  | term shape => exact .run shape.isRun (by simp) .nil
  | @step last symbol earlier op shape hsymbol _ ih =>
    have split : (last :: symbol :: earlier).reverse.map String.toList =
        earlier.reverse.map String.toList ++ [[op.symbol], last.toList] := by simp [hsymbol]
    rw [split]
    exact ih.snoc (by simp [Operator.isSymbol]) shape.isRun

/-- Terms and operators in turn make an expression of the grammar. -/
lemma InTurn.grammatical {lexemes} (h : InTurn lexemes) :
    Grammatical (lexemes.reverse.flatMap String.toList) := by
  induction h with
  | term shape => exact .term (by simpa using shape)
  | @step last symbol earlier op shape hsymbol _ ih =>
    have split : (last :: symbol :: earlier).reverse.flatMap String.toList =
        earlier.reverse.flatMap String.toList ++ op.symbol :: last.toList := by simp [hsymbol]
    rw [split]
    exact .step ih shape

/-- Every expression of the grammar is made of terms and operators in turn. -/
lemma Grammatical.exists_inTurn {cs} (h : Grammatical cs) :
    ∃ lexemes, InTurn lexemes ∧ lexemes.reverse.flatMap String.toList = cs := by
  induction h with
  | @term cs shape => exact ⟨[String.ofList cs], .term (by simpa using shape), by simp⟩
  | @step cs last op _ shape ih =>
    obtain ⟨lexemes, inTurn, rfl⟩ := ih
    have hsymbol : (String.ofList [op.symbol]).toList = [op.symbol] := String.toList_ofList
    have hlast : IsTermShape (String.ofList last).toList := by simpa using shape
    exact ⟨String.ofList last :: String.ofList [op.symbol] :: lexemes,
      .step hlast hsymbol inTurn, by simp⟩

/-- A text is an expression if and only if its lexemes are terms and operators in turn. -/
theorem grammatical_iff {e : String} : Grammatical e.toList ↔ InTurn (tokenize e).reverse := by
  refine ⟨fun h => ?_, fun h => ?_⟩
  · obtain ⟨ls, inTurn, flatten⟩ := h.exists_inTurn
    -- there is only one way to cut the text
    have cut : lexemes e.toList = ls.reverse.map String.toList :=
      lexemes_eq_iff.2 ⟨inTurn.cut, flatten⟩
    rw [tokenize, cut]
    simpa [Function.comp_def] using inTurn
  · have whole : (tokenize e).flatMap String.toList = e.toList := by
      rw [← String.toList_join, join_tokenize]
    simpa [whole] using h.grammatical

end Expression

/-- The failure is about the form of an expression. -/
def EvalError.IsSyntactic (e : EvalError) : Prop :=
  e = .unfinishedExpression ∨ e = .notEnoughOperands ∨ ∃ lexeme, e = .unknownToken lexeme

namespace Evaluation
open Expression Relation

variable {raw : Grid}

/-- What is folded has the form of an expression, and so has what is evaluated. -/
def Task.WellShaped : Task → Prop
  | .cell _ e => Grammatical e.toList
  | .fold lexemes => InTurn lexemes
  | .operand lexeme => IsTermShape lexeme.toList
  | .reference _ => True

/-- What has a value has the form of an expression. -/
lemma Runs.wellShaped {s task outcome t value} (run : Runs raw s task outcome t)
    (h : outcome = .ok value) :
    task.WellShaped := by
  induction run generalizing value with
  | cell _ ih => exact grammatical_iff.2 (ih h)
  | unfinished => cases h
  | first _ ih => exact .term (ih h)
  | operandFails _ _ => cases h
  | operatorFails _ _ _ => cases h
  | @step _ _ _ _ _ _ _ _ outcome _ hop _ ih ihEarlier =>
    cases outcome with
    | error e => cases h
    | ok lhs => exact .step (ih rfl) (operator_eq_ok_iff.1 hop) (ihEarlier rfl)
  | unknown _ => cases h
  | literal hc => exact .inl (Token.classify_number_iff.1 hc).1
  | misplaced _ => cases h
  | reference hc _ _ => exact .inr (Token.isReferenceShape_of_classify hc)
  | undefined _ => cases h
  | settled _ _ => trivial
  | circular _ _ _ => cases h
  | nested _ _ _ _ _ => trivial

/-- An operand that has the shape of a term may fail, but its text is not to blame. -/
lemma not_isSyntactic_of_operand {s t : Evaluation} {lexeme e} (shape : IsTermShape lexeme.toList)
    (run : Runs raw s (.operand lexeme) (.error e) t) : ¬ e.IsSyntactic := by
  have blameless : e.IsSyntactic → e.blamed? = none := by rintro (rfl | rfl | ⟨_, rfl⟩) <;> rfl
  cases run with
  | unknown hc =>
    rcases shape.classify_error_cases hc with rfl | rfl <;> simp [EvalError.IsSyntactic]
  | misplaced hc => exact absurd hc shape.not_operator
  | reference _ run =>
    rcases run.reference_error_cases with rfl | blamed
    · simp [EvalError.IsSyntactic]
    · exact mt blameless blamed

/-- No fault is found in the form of terms and operators in turn. -/
lemma not_isSyntactic_of_fold {s t : Evaluation} {lexemes e} (inTurn : InTurn lexemes)
    (run : Runs raw s (.fold lexemes) (.error e) t) : ¬ e.IsSyntactic := by
  induction inTurn generalizing s with
  | term shape =>
    cases run with
    | first run => exact not_isSyntactic_of_operand shape run
  | step shape hsymbol _ ih =>
    generalize houtcome : Except.error e = whole at run
    cases run with
    | operandFails run =>
      cases houtcome
      exact not_isSyntactic_of_operand shape run
    | operatorFails _ hop => cases (operator_eq_ok_iff.2 hsymbol).symm.trans hop
    | @step _ _ _ _ _ _ _ _ outcome _ _ run =>
      cases outcome with
      | error e' =>
        cases houtcome
        exact ih run
      | ok lhs => rcases Operator.apply_error_cases houtcome.symm with rfl | rfl <;>
        simp [EvalError.IsSyntactic]

/-- The lexemes that are still to be folded are the first ones of some text. -/
def Task.OfText : Task → Prop
  | .fold lexemes => ∃ e after, tokenize e = lexemes.reverse ++ after
  | .cell _ _ | .operand _ | .reference _ => True

/-- Of what is called, each task has lexemes that come from the text of some expression. -/
lemma CallsFor.ofText {p q} (calls : CallsFor raw p q) (h : p.2.OfText) : q.2.OfText := by
  cases calls with
  | @fold _ _ e => exact ⟨e, [], by simp⟩
  | operand => trivial
  | @earlier _ _ last symbol earlier _ _ _ _ =>
    obtain ⟨e, after, split⟩ := h
    exact ⟨e, symbol :: last :: after, by simp [split]⟩
  | reference _ => trivial
  | nested _ _ _ => trivial

/-- Whatever the evaluator comes to fold, it finds an operator in front of every operand with a
value. -/
lemma operator_of_callsFor {s s' t : Evaluation} {z e last symbol earlier value}
    (calls : ReflTransGen (CallsFor raw) (s, .cell z e) (s', .fold (last :: symbol :: earlier)))
    (run : Runs raw s' (.operand last) (.ok value) t) :
    ∃ op : Operator, symbol.toList = [op.symbol] := by
  have ofText : ∀ {p q}, ReflTransGen (CallsFor raw) p q → p.2.OfText → q.2.OfText := by
    intro p q calls h
    induction calls with
    | refl => exact h
    | tail _ call ih => exact call.ofText ih
  obtain ⟨text, after, split⟩ := ofText calls trivial
  have split' : tokenize text = earlier.reverse ++ symbol :: last :: after := by simp [split]
  have shape : IsTermShape last.toList := run.wellShaped rfl
  exact operator_before_run split' shape.isRun

/-- The evaluator recognizes the grammar: the evaluation of an expression never fails because of its
form, and the evaluation of anything else fails. Whatever it evaluates on the way, where an operator
is due it finds one. -/
theorem evaluation_recognizes_grammar (raw : Grid) (s : Evaluation) (cell : Address)
    (expression : String) :
    (Grammatical expression.toList →
      ∀ e, ((evaluateAndStore raw cell expression).run.run s).1 = .error e → ¬ e.IsSyntactic) ∧
    (¬ Grammatical expression.toList →
      ∃ e, ((evaluateAndStore raw cell expression).run.run s).1 = .error e) ∧
    ∀ s' last symbol earlier value t,
      ReflTransGen (CallsFor raw) (s, .cell cell expression)
        (s', .fold (last :: symbol :: earlier)) →
      Runs raw s' (.operand last) (.ok value) t →
      ∃ op : Operator, symbol.toList = [op.symbol] := by
  obtain ⟨outcome, t, run, same⟩ := exists_runs_evaluateAndStore raw s cell expression
  rw [same]
  refine ⟨?_, ?_, fun _ _ _ _ _ _ => operator_of_callsFor⟩
  · rintro grammatical e rfl
    cases run with
    | cell run => exact not_isSyntactic_of_fold (grammatical_iff.1 grammatical) run
  · intro ungrammatical
    cases outcome with
    | error e => exact ⟨e, rfl⟩
    | ok value => exact absurd (run.wellShaped rfl) ungrammatical

end Evaluation

end TableCalc
