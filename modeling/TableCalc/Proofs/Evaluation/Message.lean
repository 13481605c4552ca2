import TableCalc.Proofs.Address
import TableCalc.Proofs.Evaluation.Rules

/-!
# Messages

An error cell holds the message of a failure and nothing else. The message says which failure it was
(`EvalError.message_injective`): the beginnings of the messages differ from one kind of failure to
another, and what a message quotes is written in full. So a stored cell determines the outcome that
was stored (`Cell.ofOutcome_injective`).
-/

namespace TableCalc

namespace EvalError

/-- The beginning of a message, as far as it takes to tell the kinds of failures apart. -/
lemma take_message (e : EvalError) : e.message.toList.take 3 = (match e with
    | unfinishedExpression => ['U', 'n', 'f']
    | notEnoughOperands => ['N', 'o', 't']
    | unknownToken _ => ['U', 'n', 'k']
    | numberOutOfRange _ => ['N', 'u', 'm']
    | undefinedCell _ => ['C', 'e', 'l']
    | textInExpression _ => ['C', 'a', 'n']
    | propagated _ => ['E', 'x', 'p']
    | circularReference _ => ['C', 'i', 'r']
    | divisionByZero => ['D', 'i', 'v']
    | overflow => ['A', 'r', 'i']) := by
  unfold message
  cases e <;> simp only [String.toList_append] <;> rfl

/-- The message of a failure determines the failure. -/
theorem message_injective : Function.Injective message := by
  intro e e' h
  have beginning := congrArg (·.toList.take 3) h
  simp only [take_message] at beginning
  unfold message at h
  -- only failures of one kind are left, and their messages differ in what they quote
  cases e <;> cases e' <;> cases beginning
  all_goals simp only [← String.toList_inj, String.toList_append, List.append_cancel_left_eq,
    List.append_cancel_right_eq] at h
  all_goals simp_all [String.toList_inj, Address.name_injective.eq_iff]

end EvalError

/-- Different outcomes are stored as different cells. -/
lemma Cell.ofOutcome_injective : Function.Injective Cell.ofOutcome := by
  rintro (e | value) (e' | value') h
  · rw [EvalError.message_injective (Cell.error.inj h)]
  · cases h
  · cases h
  · rw [Cell.number.inj h]

end TableCalc
