import Mathlib.Tactic.Lemma
import TableCalc.Text.Digits

/-!
# ASCII letters and digits

Letters and digits by their code points.
-/

namespace TableCalc.Text

variable {c : Char}

/-- The capitals are from `A` to `Z`. -/
lemma isUpper_iff_toNat : c.isUpper = true ↔ 65 ≤ c.toNat ∧ c.toNat ≤ 90 :=
  decide_eq_true_iff

/-- The small letters are from `a` to `z`. -/
lemma isLower_iff_toNat : c.isLower = true ↔ 97 ≤ c.toNat ∧ c.toNat ≤ 122 := by
  show (decide ('a'.val ≤ c.val) && decide (c.val ≤ 'z'.val)) = true ↔ 'a'.val ≤ c.val ∧
      c.val ≤ 'z'.val
  rw [Bool.and_eq_true, decide_eq_true_iff, decide_eq_true_iff]

/-- A letter is a capital or a small one. -/
lemma isAlpha_iff : c.isAlpha = true ↔ c.isUpper = true ∨ c.isLower = true :=
  Bool.or_eq_true_iff

/-- A letter is no digit. -/
lemma not_isDigit_of_isAlpha (h : c.isAlpha = true) : c.isDigit = false := by
  have nine : '9'.toNat = 57 := rfl
  rw [isAlpha_iff, isUpper_iff_toNat, isLower_iff_toNat] at h
  rw [← Bool.not_eq_true, Char.isDigit_iff_toNat]
  omega

/-- No character but a small letter has another capital. -/
lemma toUpper_of_not_isLower (h : c.isLower = false) : c.toUpper = c := by
  have not : ¬ ('a'.val ≤ c.val ∧ c.val ≤ 'z'.val) := mt isLower_iff_toNat.2 (by simp [h])
  exact dif_neg not

end TableCalc.Text
