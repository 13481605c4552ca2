import TableCalc.Proofs.Address
import TableCalc.Proofs.Evaluation.Justification
import TableCalc.Proofs.Expression.Lexeme
import TableCalc.Proofs.Text.Blank

/-!
# What messages quote

A message quotes at most one lexeme, or the name of one cell, and what stands around it does not
depend on the expression (`EvalError.spaced_message`). A failure that is met in the expression
itself quotes a lexeme of this very expression, since a failure that comes from another cell quotes
that cell by its name. So if there is no white space in an expression, there is none in what its
failure quotes (`Justified.unblank_quoted`).
-/

namespace TableCalc

/-- Digits are no white space. -/
lemma Text.unblank_toDigits (n : Nat) : Unblank (Nat.toDigits 10 n) :=
  fun _ hc => (Expression.digit_isNormal (Nat.isDigit_of_mem_toDigits (by omega) (by omega) hc)).1

/-- There is no white space in the written form of an address. -/
lemma Address.unblank_name (z : Address) : Text.Unblank z.name.toList := by
  have all : ∀ i : Fin 26, Text.isBlank (letter i) = false := by decide
  rw [toList_name]
  refine .append (fun c hc => ?_) (Text.unblank_toDigits _)
  obtain ⟨i, hi, rfl⟩ := exists_letter_of_mem hc
  exact all ⟨i, hi⟩

namespace Expression

/-- Normalizing leaves no white space. -/
lemma unblank_normalize (source : String) : Text.Unblank (normalize source).toList := by
  rw [normalize, String.toList_ofList]
  exact fun c hc => (isNormal_normalizeChars _ c hc).1

/-- A text without white space has lexemes without white space. -/
lemma unblank_of_mem_tokenize {e lexeme : String} (h : Text.Unblank e.toList)
    (hmem : lexeme ∈ tokenize e) :
    Text.Unblank lexeme.toList := by
  intro c hc
  rw [← join_tokenize e, String.toList_join] at h
  exact h c (List.mem_flatMap.2 ⟨lexeme, hmem, hc⟩)

end Expression

namespace EvalError

/-- What the message of a failure quotes. -/
def quoted : EvalError → String
  | unknownToken lexeme | numberOutOfRange lexeme | undefinedCell lexeme => lexeme
  | textInExpression cell | propagated cell | circularReference cell => cell.name
  | unfinishedExpression | notEnoughOperands | divisionByZero | overflow => ""

/-- But for what it quotes, a message has no other white space than spaces. -/
theorem spaced_message {e : EvalError} (h : Text.Unblank e.quoted.toList) :
    Text.Spaced e.message.toList := by
  unfold message
  cases e with
  | unfinishedExpression | notEnoughOperands | divisionByZero | overflow => decide
  | undefinedCell name =>
    rw [String.toList_append, String.toList_append]
    exact .append (.append (by decide) h.spaced) (by decide)
  | _ =>
    rw [String.toList_append]
    exact .append (by decide) h.spaced

end EvalError

namespace Evaluation
open Expression

/-- An address that is quoted has no white space, whoever quotes it. -/
lemma unblank_quoted_seenFrom (z : Address) (e : EvalError) :
    Text.Unblank (e.seenFrom z).quoted.toList := by
  unfold EvalError.seenFrom
  split
  · split <;> exact Address.unblank_name _
  · exact Address.unblank_name _

/-- There is no white space in the texts of the task. -/
def Task.Unblank : Task → Prop
  | .cell _ expression => Text.Unblank expression.toList
  | .fold lexemes => ∀ lexeme ∈ lexemes, Text.Unblank lexeme.toList
  | .operand lexeme => Text.Unblank lexeme.toList
  | .reference _ => True

/-- If there is no white space in an expression, there is none in what its failure quotes. -/
theorem Justified.unblank_quoted {raw task outcome e} (h : Justified raw task outcome)
    (unblank : task.Unblank) (hout : outcome = .error e) : Text.Unblank e.quoted.toList := by
  -- beyond a reference the texts of the task do not matter: what comes back quotes the name of a
  -- cell
  induction h generalizing e with
  | cell _ ih =>
    exact ih (fun lexeme hmem => unblank_of_mem_tokenize unblank (List.mem_reverse.1 hmem)) hout
  | unfinished =>
    cases hout
    exact nofun
  | first _ ih => exact ih (unblank _ (List.mem_singleton_self _)) hout
  | operandFails _ ih => exact ih (unblank _ List.mem_cons_self) hout
  | @operatorFails _ symbol _ _ _ _ hop _ =>
    cases hout
    have quoted : Text.Unblank symbol.toList := unblank symbol (by simp)
    rcases operator_error_cases hop with rfl | rfl | rfl <;> exact quoted
  | @step _ _ earlier _ _ earlierOutcome _ _ _ _ ihEarlier =>
    cases earlierOutcome with
    | ok lhs =>
      rcases Operator.apply_error_cases hout with rfl | rfl <;> exact nofun
    | error e' =>
      cases hout
      exact ihEarlier (fun lexeme hmem => unblank lexeme (by simp [hmem])) rfl
  | unknown hc =>
    cases hout
    rcases Token.classify_error_cases hc with rfl | rfl | rfl <;> exact unblank
  | literal _ => cases hout
  | misplaced _ =>
    cases hout
    exact nofun
  | reference _ _ ih => exact ih trivial hout
  | undefined _ =>
    cases hout
    exact Address.unblank_name _
  | @plain _ given _ _ hseen =>
    cases given <;> cases hseen <;> cases hout <;> exact Address.unblank_name _
  | circular _ _ =>
    cases hout
    exact Address.unblank_name _
  | @nested _ _ inner _ _ _ =>
    cases inner <;> cases hout
    exact unblank_quoted_seenFrom _ _
  | @remembered _ _ inner _ _ _ =>
    cases inner <;> cases hout
    exact Address.unblank_name _

end Evaluation

end TableCalc
