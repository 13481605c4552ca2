import TableCalc.Expression.Lexeme

/-!
# Tokens

What a lexeme stands for: a number, a reference to a cell or an operator. A reference is one capital
letter and one digit, so only the first nine rows can be referred to.
-/

namespace TableCalc

/-- A classified lexeme. -/
inductive Token where
  | number (value : Int64)
  | reference (cell : Address)
  | operator (op : Operator)
deriving DecidableEq, Repr

namespace Token

/-- A capital letter followed by a digit: the shape of a reference. -/
def IsReferenceShape : List Char → Prop
  | [letter, digit] => letter.isUpper = true ∧ digit.isDigit = true
  | _ => False

instance : DecidablePred IsReferenceShape
  | [_, _] => inferInstanceAs (Decidable (_ ∧ _))
  | [] | [_] | _ :: _ :: _ :: _ => inferInstanceAs (Decidable False)

/-- A reference is spelled by a capital letter and a digit. -/
theorem IsReferenceShape.exists_chars {cs : List Char} (h : IsReferenceShape cs) :
    ∃ letter digit, cs = [letter, digit] ∧ letter.isUpper = true ∧ digit.isDigit = true := by
  unfold IsReferenceShape at h
  split at h
  · exact ⟨_, _, rfl, h⟩
  · cases h

/-- The token that a lexeme stands for. The digit 0 has the shape of a reference and names no cell.
-/
def classify (lexeme : String) : Except EvalError Token :=
  if Text.IsNumeral lexeme.toList then
    match Text.int64? lexeme.toList with
    | some value => .ok (.number value)
    | none => .error (.numberOutOfRange lexeme)
  else if IsReferenceShape lexeme.toList then
    match Address.ofName? lexeme with
    | some cell => .ok (.reference cell)
    | none => .error (.undefinedCell lexeme)
  else
    match lexeme.toList with
    | [c] =>
      match Operator.ofSymbol? c with
      | some op => .ok (.operator op)
      | none => .error (.unknownToken lexeme)
    | _ => .error (.unknownToken lexeme)

/-- The numbers are the numerals in range. -/
theorem classify_number_iff {lexeme : String} {value : Int64} :
    classify lexeme = .ok (.number value) ↔
      Text.IsNumeral lexeme.toList ∧ (Nat.ofDigitChars 10 lexeme.toList 0 : Int) = value.toInt := by
  rw [← Text.int64?_eq_some_iff]
  fun_cases classify lexeme <;> simp_all [Text.int64?_eq_some_iff, Int64.toInt_inj]

/-- What stands for a reference is spelled like one. -/
theorem isReferenceShape_of_classify {lexeme : String} {cell : Address}
    (h : classify lexeme = .ok (.reference cell)) : IsReferenceShape lexeme.toList := by
  revert h
  fun_cases classify lexeme <;> rintro ⟨⟩
  assumption

/-- The operators are the lexemes of one symbol. -/
theorem classify_operator_iff {lexeme : String} {op : Operator} :
    classify lexeme = .ok (.operator op) ↔ lexeme.toList = [op.symbol] := by
  have single : lexeme.toList = [op.symbol] → classify lexeme = .ok (.operator op) := by
    intro h
    unfold classify
    rw [h]
    cases op <;> rfl
  refine ⟨?_, single⟩
  fun_cases classify lexeme <;> simp_all [Operator.ofSymbol?_eq_some_iff]

/-- A lexeme that stands for no token is reported as it stands. -/
theorem classify_error_cases {lexeme : String} {e : EvalError} (h : classify lexeme = .error e) :
    e = .numberOutOfRange lexeme ∨ e = .undefinedCell lexeme ∨ e = .unknownToken lexeme := by
  revert h
  fun_cases classify lexeme <;> rintro ⟨⟩ <;> simp

/-- A lexeme that stands for nothing blames no cell. -/
theorem classify_error {lexeme : String} {e : EvalError} (h : classify lexeme = .error e) :
    e.blamed? = none := by
  rcases classify_error_cases h with rfl | rfl | rfl <;> rfl

end Token

end TableCalc
