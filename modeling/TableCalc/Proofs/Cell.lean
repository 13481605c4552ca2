import TableCalc.Cell
import TableCalc.Proofs.Expression.Lexeme
import TableCalc.Proofs.Text.Digits

/-!
# Cells of tokens

A token that is no cell is reported as it stands, and a number among the tokens has no sign. A cell
is read back from its token (`parse_token`), and the token of a cell is the one that the cell was
read from, but for zeros in front of a number (`token_of_parse`). Cells and expressions read the
same numbers.
-/

namespace TableCalc.Cell

/-- A number that is read from a token has no sign. -/
lemma not_negative_of_parse {token : String} {value : Int64}
    (h : parse token = .ok (.number value)) :
    0 ≤ value.toInt := by
  revert h
  fun_cases parse token <;> rintro ⟨⟩
  rename_i hvalue
  have := (Text.int64?_eq_some_iff.1 hvalue).2
  omega

/-- A digit is no mark of a kind. -/
lemma parse_of_isNumeral {token : String} (h : Text.IsNumeral token.toList) :
    parse token = match Text.int64? token.toList with
      | some value => .ok (.number value)
      | none => .error (.unknownFormat token) := by
  unfold parse
  split
  case h_1 content hmark => rw [hmark] at h; cases h.2
  case h_2 source hmark => rw [hmark] at h; cases h.2
  case h_3 message hmark => rw [hmark] at h; cases h.2
  case h_4 => rfl

/-- A cell is read back from its token, if it is not a negative number. -/
theorem parse_token {cell : Cell} (h : ∀ value, cell = .number value → 0 ≤ value.toInt) :
    parse cell.token = .ok cell := by
  cases cell with
  | text content => simp [token, parse]
  | expression source => simp [token, parse]
  | error message => simp [token, render, parse]
  | number value =>
    obtain ⟨n, hn⟩ := Int.eq_ofNat_of_zero_le (h value rfl)
    have written : (number value).token = toString n := by
      rw [token, render, hn]
      rfl
    have numeral := Expression.isNumeral_toString n
    have read : Text.int64? (toString n).toList = some value := by
      refine Text.int64?_eq_some_iff.2 ⟨numeral, ?_⟩
      rw [Expression.toList_toString, Nat.ofDigitChars_ten_toDigits, hn]
    rw [written, parse_of_isNumeral numeral, read]

/-- A text is its first character followed by the rest. -/
lemma mark_append {s : String} {mark : Char} {content : List Char}
    (h : s.toList = mark :: content) :
    String.ofList [mark] ++ String.ofList content = s := by
  rw [← String.ofList_append, List.singleton_append, ← h, String.ofList_toList]

/-- The token of a cell is the one that it was read from. Only a number loses the zeros in front. -/
theorem token_of_parse {s : String} {cell : Cell} :
    parse s = .ok cell → cell.token = match cell with
    | .number _ => String.ofList (Text.withoutZeros s.toList)
    | _ => s := by
  intro h
  unfold parse at h
  split at h
  case h_1 content hmark => cases h; exact mark_append hmark
  case h_2 source hmark => cases h; exact mark_append hmark
  case h_3 message hmark => cases h; exact mark_append hmark
  case h_4 =>
    split at h <;> cases h
    case h_1 value hvalue =>
      obtain ⟨numeral, hvalue⟩ := Text.int64?_eq_some_iff.1 hvalue
      rw [token, render, ← Text.toDigits_ofDigitChars numeral, ← hvalue]
      rfl

/-- A token is no cell if it has no mark of a kind and is no number either. -/
lemma parse_eq_error_iff {s : String} {e} :
    parse s = .error e ↔
      e = .unknownFormat s ∧ (∀ mark ∈ ['\'', '=', '#'], s.toList.head? ≠ some mark) ∧
        Text.int64? s.toList = none := by
  unfold parse
  split
  case h_1 content hmark => simp [hmark]
  case h_2 source hmark => simp [hmark]
  case h_3 message hmark => simp [hmark]
  case h_4 text expression error =>
    have unmarked : ∀ mark ∈ ['\'', '=', '#'], s.toList.head? ≠ some mark := by
      intro mark hmark head
      obtain ⟨content, hs⟩ := List.head?_eq_some_iff.1 head
      simp only [List.mem_cons, List.not_mem_nil, or_false] at hmark
      rcases hmark with rfl | rfl | rfl
      · exact text content hs
      · exact expression content hs
      · exact error content hs
    cases hvalue : Text.int64? s.toList with
    | some value => simp
    | none =>
      rw [Except.error.injEq, eq_comm]
      exact (and_iff_left ⟨unmarked, rfl⟩).symm

/-- There is one way only in which a token can be faulty. -/
lemma parse_eq_error {s : String} {e} (h : parse s = .error e) : e = .unknownFormat s :=
  (parse_eq_error_iff.1 h).1

/-- The numerals that are no number are those that are no token of an expression, and the others
have the same value. -/
lemma parse_iff_classify {s : String} (h : Text.IsNumeral s.toList) :
    (∀ value, parse s = .ok (.number value) ↔ Token.classify s = .ok (.number value)) ∧
    ((∃ e, parse s = .error e) ↔ Token.classify s = .error (.numberOutOfRange s)) := by
  rw [parse_of_isNumeral h, Token.classify, if_pos h]
  cases Text.int64? s.toList <;> simp

/-- The two tokens that stand for no cell are not those of a cell. -/
lemma ne_of_parse {s : String} {cell : Cell} (h : parse s = .ok cell) : s ≠ "" ∧ s ≠ "null" := by
  constructor <;> rintro rfl <;> cases h

end TableCalc.Cell
