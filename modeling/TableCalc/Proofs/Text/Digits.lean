import Mathlib.Tactic.Lemma
import TableCalc.Text.Digits

/-!
# Numerals and numbers

A number is written without zeros in front. So a numeral is the written form of its value up to the
zeros in front of it (`toDigits_ofDigitChars`).
-/

namespace TableCalc.Text

/-- The numeral without the zeros in front. The last digit is kept. -/
def withoutZeros : List Char → List Char
  | '0' :: c :: cs => withoutZeros (c :: cs)
  | cs => cs

variable {c : Char} {cs : List Char} {n : Nat}

/-- Each digit is the one of a number below ten. -/
lemma exists_digitChar (h : c.isDigit = true) : ∃ d < 10, d.digitChar = c := by
  have zero : '0'.toNat = 48 := rfl
  have nine : '9'.toNat = 57 := rfl
  rw [Char.isDigit_iff_toNat] at h
  refine ⟨c.toNat - 48, by omega, ?_⟩
  rw [← Char.toNat_inj, Nat.toNat_digitChar_of_lt_ten (by omega)]
  omega

/-- Digits behind a positive number are written as they are. -/
lemma toDigits_ofDigitChars_of_pos (hn : 0 < n) (digits : ∀ c ∈ cs, c.isDigit = true) :
    Nat.toDigits 10 (Nat.ofDigitChars 10 cs n) = Nat.toDigits 10 n ++ cs := by
  induction cs generalizing n with
  | nil => rw [Nat.ofDigitChars_nil, List.append_nil]
  | cons c cs ih =>
    obtain ⟨hc, hcs⟩ := List.forall_mem_cons.1 digits
    obtain ⟨d, hd, rfl⟩ := exists_digitChar hc
    rw [Nat.ofDigitChars_cons_digitChar_of_lt_ten hd, ih (by omega) hcs,
      ← Nat.toDigits_append_toDigits (by omega) hn hd, Nat.toDigits_of_lt_base hd,
        List.append_assoc,
      List.singleton_append]

/-- The value of a numeral is written as the numeral without the zeros in front. -/
theorem toDigits_ofDigitChars (h : IsNumeral cs) :
    Nat.toDigits 10 (Nat.ofDigitChars 10 cs 0) = withoutZeros cs := by
  obtain ⟨hne, digits⟩ := h
  fun_induction withoutZeros cs with
  | case1 c cs ih =>
    rw [List.all_cons, Bool.and_eq_true] at digits
    exact ih (List.cons_ne_nil c cs) digits.2
  | case2 cs first =>
    obtain ⟨c, cs, rfl⟩ := List.exists_cons_of_ne_nil hne
    obtain ⟨hc, hcs⟩ := List.forall_mem_cons.1 (List.all_eq_true.1 digits)
    obtain ⟨d, hd, rfl⟩ := exists_digitChar hc
    rcases Nat.eq_zero_or_pos d with rfl | hpos
    · cases cs with
      | nil => rfl
      | cons c cs => exact (first c cs rfl).elim
    · rw [Nat.ofDigitChars_cons_digitChar_of_lt_ten hd, toDigits_ofDigitChars_of_pos (by omega) hcs,
        Nat.mul_zero, Nat.zero_add, Nat.toDigits_of_lt_base hd, List.singleton_append]

/-- What is not read is no numeral, or its value is too large. -/
lemma int64?_eq_none_iff :
    int64? cs = none ↔ ¬ (IsNumeral cs ∧ Nat.ofDigitChars 10 cs 0 ≤ 9223372036854775807) := by
  rw [int64?, Option.map_eq_none_iff, numeralBelow?, ← Nat.lt_succ_iff]
  simp

end TableCalc.Text
