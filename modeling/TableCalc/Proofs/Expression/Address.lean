import TableCalc.Proofs.Address
import TableCalc.Proofs.Expression.Lexeme

/-!
# Addresses that are read

A text is read as an address if it is one letter and a numeral in range (`IsWritten`), and the
written form of what was read is the capital letter with the same number. So the written form of an
address is read back if its column has one letter (`ofName?_name`), and in an expression it stands
for a reference if its row has one digit as well (`classify_name`). Letters and digits are kept
apart by the first digit in all this: the letters in front of it are those of the column, and there
is no digit in front of a letter.
-/

namespace TableCalc.Address

/-- The letters are capitals. -/
lemma toUpper_letter {i : Nat} (h : i < 26) :
    (letter i).isAlpha = true ∧ (letter i).toUpper = letter i := by
  have all : ∀ i : Fin 26, (letter i).isAlpha = true ∧ (letter i).toUpper = letter i := by decide
  exact all ⟨i, h⟩

/-- A letter stands for the column with the same capital letter. -/
lemma columnOfLetter?_of_isAlpha {c : Char} (h : c.isAlpha = true) :
    ∃ col < 26, columnOfLetter? c = some col ∧ c.toUpper = letter col := by
  have capital : ∀ i : Fin 26, columnOfLetter? (Char.ofNat (65 + i)) = some i.val ∧
      (Char.ofNat (65 + i)).toUpper = letter i := by decide
  have small : ∀ i : Fin 26, columnOfLetter? (Char.ofNat (97 + i)) = some i.val ∧
      (Char.ofNat (97 + i)).toUpper = letter i := by decide
  rw [Text.isAlpha_iff, Text.isUpper_iff_toNat, Text.isLower_iff_toNat] at h
  rcases h with upper | lower
  · have hc := capital ⟨c.toNat - 65, by omega⟩
    simp only [show 65 + (c.toNat - 65) = c.toNat by omega, Char.ofNat_toNat] at hc
    exact ⟨_, by omega, hc⟩
  · have hc := small ⟨c.toNat - 97, by omega⟩
    simp only [show 97 + (c.toNat - 97) = c.toNat by omega, Char.ofNat_toNat] at hc
    exact ⟨_, by omega, hc⟩

/-- A column is found by its letter in either case. -/
lemma columnOfLetter?_eq_some_iff {c : Char} {col : Nat} :
    columnOfLetter? c = some col ↔ c.isAlpha = true ∧ col < 26 ∧ c.toUpper = letter col := by
  by_cases alpha : c.isAlpha = true
  · obtain ⟨col', hcol', hc, upper⟩ := columnOfLetter?_of_isAlpha alpha
    rw [hc, Option.some.injEq, upper]
    constructor
    · rintro rfl
      exact ⟨alpha, hcol', rfl⟩
    · rintro ⟨-, hcol, same⟩
      have := congrArg Char.toNat same
      rw [toNat_letter hcol, toNat_letter hcol'] at this
      omega
  · have none : columnOfLetter? c = none := by
      rw [Text.isAlpha_iff, not_or] at alpha
      rw [columnOfLetter?, if_neg alpha.1, if_neg alpha.2]
    simp [none, alpha]

/-- The text is one letter, of either case, and behind it a numeral for `number`. -/
def IsWritten (s : String) (c : Char) (number : Nat) : Prop :=
  ∃ digits, s.toList = c :: digits ∧ c.isAlpha = true ∧ Text.IsNumeral digits ∧
    Nat.ofDigitChars 10 digits 0 = number

variable {s : String} {c : Char} {number : Nat} {a : Address}

/-- The letter is what stands in front of the first digit. -/
lemma IsWritten.takeWhile (h : IsWritten s c number) : s.toList.takeWhile (!·.isDigit) = [c] := by
  obtain ⟨digits, hs, alpha, ⟨hne, hdigits⟩, -⟩ := h
  obtain ⟨d, digits, rfl⟩ := List.exists_cons_of_ne_nil hne
  have hd : d.isDigit = true := List.all_eq_true.1 hdigits d (by simp)
  rw [hs, List.takeWhile_cons_of_pos (by simp [Text.not_isDigit_of_isAlpha alpha]),
    List.takeWhile_cons_of_neg (by simp [hd])]

/-- An address is read from a letter in either case and the numeral of its row, with zeros in front
or not. -/
lemma ofName?_eq_some_iff :
    ofName? s = some a ↔ ∃ c, IsWritten s c (a.row + 1) ∧ a.row < 18446744073709551615 ∧
      a.col < 26 ∧ c.toUpper = letter a.col := by
  unfold ofName? IsWritten
  cases hs : s.toList with
  | nil => simp [ofChars?]
  | cons c digits =>
    rw [ofChars?]
    constructor
    · intro h
      obtain ⟨col, hcol, h⟩ := Option.bind_eq_some_iff.1 h
      obtain ⟨number, hnumber, h⟩ := Option.bind_eq_some_iff.1 h
      cases number with
      | zero => cases h
      | succ row =>
        cases h
        obtain ⟨alpha, bound, upper⟩ := columnOfLetter?_eq_some_iff.1 hcol
        obtain ⟨numeral, value, small⟩ := Text.numeralBelow?_eq_some_iff.1 hnumber
        exact ⟨c, ⟨digits, rfl, alpha, numeral, value⟩, Nat.lt_of_succ_lt_succ small, bound, upper⟩
    · rintro ⟨_, ⟨_, ⟨⟩, alpha, numeral, value⟩, small, bound, upper⟩
      have hcol := columnOfLetter?_eq_some_iff.2 ⟨alpha, bound, upper⟩
      have hnumber : Text.size? digits = some (a.row + 1) :=
        Text.numeralBelow?_eq_some_iff.2 ⟨numeral, value, by omega⟩
      simp [hcol, hnumber]

/-- A letter and a numeral are an address, unless the number is 0 or too large. -/
lemma exists_ofName?_iff :
    (∃ a, ofName? s = some a) ↔ ∃ c number, IsWritten s c number ∧ 1 ≤ number ∧
      number ≤ 18446744073709551615 := by
  constructor
  · rintro ⟨a, ha⟩
    obtain ⟨c, written, bound, -⟩ := ofName?_eq_some_iff.1 ha
    exact ⟨c, a.row + 1, written, by omega, by omega⟩
  · rintro ⟨c, number, ⟨digits, hs, alpha, numeral, value⟩, positive, bound⟩
    obtain ⟨row, rfl⟩ := Nat.exists_eq_add_of_le' positive
    obtain ⟨col, hcol, -, upper⟩ := columnOfLetter?_of_isAlpha alpha
    have small : row < 18446744073709551615 := by omega
    exact ⟨⟨row, col⟩,
      ofName?_eq_some_iff.2 ⟨c, ⟨digits, hs, alpha, numeral, value⟩, small, hcol, upper⟩⟩

/-- An address in the first 26 columns is written as one letter followed by digits. -/
lemma toList_name_of_lt (h : a.col < 26) :
    a.name.toList = letter a.col :: Nat.toDigits 10 (a.row + 1) := by
  rw [toList_name, columnLetters, if_pos h]
  rfl

/-- The written form of an address in the first 26 columns is one that is read. -/
lemma isWritten_name (h : a.col < 26) : IsWritten a.name (letter a.col) (a.row + 1) := by
  refine ⟨_, toList_name_of_lt h, (toUpper_letter h).1, ?_, Nat.ofDigitChars_ten_toDigits⟩
  exact Expression.toList_toString (a.row + 1) ▸ Expression.isNumeral_toString (a.row + 1)

/-- What was read is written with a capital letter and without zeros in front. -/
lemma name_of_ofName? (h : ofName? s = some a) (written : IsWritten s c number) :
    a.name = String.singleton c.toUpper ++ toString number := by
  obtain ⟨c', ⟨digits', hs', -, -, value'⟩, -, hcol, upper⟩ := ofName?_eq_some_iff.1 h
  obtain ⟨digits, hs, -, -, value⟩ := written
  cases hs.symm.trans hs'
  rw [← String.toList_inj, toList_name_of_lt hcol, String.toList_append, String.toList_singleton,
    Expression.toList_toString, upper, ← value, value', List.singleton_append]

/-- An address is read back from its written form, unless its column has several letters. -/
theorem ofName?_name (h : a.row < 18446744073709551615) :
    ofName? a.name = if a.col < 26 then some a else none := by
  split
  case isTrue hcol =>
    exact ofName?_eq_some_iff.2 ⟨_, isWritten_name hcol, h, hcol, (toUpper_letter hcol).2⟩
  case isFalse hcol =>
    refine Option.eq_none_iff_forall_ne_some.2 fun b hb => hcol ?_
    obtain ⟨c, written, -⟩ := ofName?_eq_some_iff.1 hb
    rw [← length_columnLetters_le_one_iff, ← takeWhile_name, written.takeWhile]
    exact Nat.le_refl 1

/-- No written form is a numeral. -/
lemma not_isNumeral_name : ¬ Text.IsNumeral a.name.toList := by
  rintro ⟨-, digits⟩
  obtain ⟨c, letters, split⟩ := List.exists_cons_of_ne_nil (areCapitals_columnLetters a.col).1
  have hc : c.isDigit = false := columnLetters_not_digit a.col c (by simp [split])
  rw [toList_name, split, List.cons_append, List.all_cons, hc] at digits
  cases digits

/-- There is a letter in a written address, and a digit. -/
lemma length_name :
    a.name.toList.length = (columnLetters a.col).length + (Nat.toDigits 10 (a.row + 1)).length ∧
    1 ≤ (columnLetters a.col).length ∧ 1 ≤ (Nat.toDigits 10 (a.row + 1)).length := by
  rw [toList_name, List.length_append]
  exact ⟨rfl, List.length_pos_iff.2 (areCapitals_columnLetters a.col).1, Nat.length_toDigits_pos⟩

/-- The written form of an address can stand in an expression if it is one letter and one digit. -/
lemma isReferenceShape_name_iff :
    Token.IsReferenceShape a.name.toList ↔ a.row < 9 ∧ a.col < 26 := by
  constructor
  · intro h
    obtain ⟨letter, digit, chars, -, -⟩ := h.exists_chars
    obtain ⟨whole, letters, digits⟩ := @length_name a
    rw [chars, List.length_cons, List.length_singleton] at whole
    have row : a.row + 1 < 10 ^ 1 := (Nat.length_toDigits_le_iff (by decide) (by decide)).1
        (by omega)
    exact ⟨by omega, length_columnLetters_le_one_iff.1 (by omega)⟩
  · rintro ⟨hrow, hcol⟩
    have digit : Nat.toDigits 10 (a.row + 1) = [(a.row + 1).digitChar] :=
      Nat.toDigits_of_lt_base (by omega)
    rw [toList_name_of_lt hcol, digit]
    exact ⟨letter_isUpper hcol,
      Nat.isDigit_of_mem_toDigits (by decide) (by decide) (digit ▸ List.mem_singleton_self _)⟩

/-- In an expression, the written form of an address stands for a reference if it is one letter and
one digit. -/
theorem classify_name :
    Token.classify a.name =
      if a.row < 9 ∧ a.col < 26 then .ok (.reference a) else .error (.unknownToken a.name) := by
  rw [Token.classify, if_neg not_isNumeral_name]
  by_cases shape : Token.IsReferenceShape a.name.toList
  · obtain ⟨hrow, hcol⟩ := isReferenceShape_name_iff.1 shape
    rw [if_pos shape, if_pos ⟨hrow, hcol⟩, ofName?_name (by omega), if_pos hcol]
  · rw [if_neg shape, if_neg (mt isReferenceShape_name_iff.2 shape)]
    split
    case h_1 c single =>
      obtain ⟨whole, letters, digits⟩ := @length_name a
      rw [single, List.length_singleton] at whole
      omega
    case h_2 => rfl

/-- No two addresses have the same written form. It is read back where the column has one letter,
and in an expression where the row has one digit as well. A text is read as an address exactly if it
is one letter and a numeral in range, and the address is written with the capital letter and the
number. The letters of a column are its numeral: no other capital letters stand for it, and columns
are in the order of their letters. -/
theorem written_form_reads_back :
    Function.Injective name ∧
    (∀ a : Address, a.row < 18446744073709551615 →
      ofName? a.name = (if a.col < 26 then some a else none) ∧
      Token.classify a.name =
        if a.row < 9 ∧ a.col < 26 then .ok (.reference a) else .error (.unknownToken a.name)) ∧
    (∀ s, (∃ a, ofName? s = some a) ↔
      ∃ c number, IsWritten s c number ∧ 1 ≤ number ∧ number ≤ 18446744073709551615) ∧
    (∀ s a c number, ofName? s = some a → IsWritten s c number →
      a.name = String.singleton c.toUpper ++ toString number) ∧
    (∀ col letters,
      columnLetters col = letters ↔ AreCapitals letters ∧ columnOfLetters letters = col + 1) ∧
    ∀ col col', col < col' ↔ Precedes (columnLetters col) (columnLetters col') :=
  ⟨name_injective, fun _ hrow => ⟨ofName?_name hrow, classify_name⟩, fun _ => exists_ofName?_iff,
    fun _ _ _ _ => name_of_ofName?, fun _ _ => columnLetters_eq_iff, fun _ _ => lt_iff_precedes⟩

/-- The last row and the last column that are read. -/
theorem written_form_reads_back_corner :
    let corner : Address := ⟨18446744073709551614, 25⟩
    corner.row < 18446744073709551615 ∧ ofName? corner.name = some corner ∧
    Token.classify corner.name = .error (.unknownToken corner.name) ∧
    ofName? "z018446744073709551615" = some corner ∧
      IsWritten "z018446744073709551615" 'z' 18446744073709551615 ∧
    corner.name = "Z18446744073709551615" := by
  obtain ⟨-, back, -, capital, -⟩ := written_form_reads_back
  have hrow : (⟨18446744073709551614, 25⟩ : Address).row < 18446744073709551615 := by decide
  have read : ofName? "z018446744073709551615" = some ⟨18446744073709551614, 25⟩ := by decide
  have written : IsWritten "z018446744073709551615" 'z' 18446744073709551615 :=
    ⟨"018446744073709551615".toList, by decide, by decide, by decide, by decide⟩
  obtain ⟨readBack, classified⟩ := back _ hrow
  refine ⟨hrow, readBack, classified, read, written, ?_⟩
  rw [capital _ _ _ _ read written]
  decide

end TableCalc.Address
