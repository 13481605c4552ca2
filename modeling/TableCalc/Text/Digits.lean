/-!
# Digits and decimal numerals

Numbers are read from ASCII digits alone: no sign, no separator, leading zeros allowed. A numeral
has a value as a natural number first; the readers for 64-bit quantities then bound that value.
-/

namespace TableCalc.Text

/-- A non-empty run of ASCII digits. -/
def IsNumeral (cs : List Char) : Prop := cs ≠ [] ∧ cs.all Char.isDigit = true

instance (cs : List Char) : Decidable (IsNumeral cs) := inferInstanceAs (Decidable (_ ∧ _))

/-- The value of a numeral, if it is one and its value is below `bound`. -/
def numeralBelow? (bound : Nat) (cs : List Char) : Option Nat :=
  if IsNumeral cs ∧ Nat.ofDigitChars 10 cs 0 < bound then some (Nat.ofDigitChars 10 cs 0) else none

/-- A size: a numeral below `2 ^ 64`. -/
def size? (cs : List Char) : Option Nat := numeralBelow? 18446744073709551616 cs

/-- A number cell's value: a numeral that a signed 64-bit integer can hold, so one below `2 ^ 63`.
-/
def int64? (cs : List Char) : Option Int64 := (numeralBelow? 9223372036854775808 cs).map Int64.ofNat

/-- A numeral is read as its value if this is below the bound, and nothing else is read. -/
theorem numeralBelow?_eq_some_iff {bound n : Nat} {cs : List Char} :
    numeralBelow? bound cs = some n ↔ IsNumeral cs ∧ Nat.ofDigitChars 10 cs 0 = n ∧ n < bound := by
  unfold numeralBelow?
  split
  case isTrue h =>
    simp only [Option.some.injEq]
    exact ⟨fun e => ⟨h.1, e, e ▸ h.2⟩, fun e => e.2.1⟩
  case isFalse h =>
    simp only [reduceCtorEq, false_iff]
    exact fun e => h ⟨e.1, e.2.1 ▸ e.2.2⟩

/-- A numeral is read as its value if a signed integer of 64 bits can hold it, and nothing else is
read. -/
theorem int64?_eq_some_iff {cs : List Char} {value : Int64} :
    int64? cs = some value ↔ IsNumeral cs ∧ (Nat.ofDigitChars 10 cs 0 : Int) = value.toInt := by
  unfold int64?
  rw [Option.map_eq_some_iff]
  refine ⟨?_, ?_⟩
  · rintro ⟨n, h, rfl⟩
    obtain ⟨numeral, rfl, bound⟩ := numeralBelow?_eq_some_iff.1 h
    exact ⟨numeral, (Int64.toInt_ofNat_of_lt bound).symm⟩
  · rintro ⟨numeral, h⟩
    have bound : Nat.ofDigitChars 10 cs 0 < 2 ^ 63 := by
      have := value.toInt_lt
      omega
    refine ⟨_, numeralBelow?_eq_some_iff.2 ⟨numeral, rfl, bound⟩, ?_⟩
    rw [← Int64.toInt_inj, Int64.toInt_ofNat_of_lt bound, h]

end TableCalc.Text
