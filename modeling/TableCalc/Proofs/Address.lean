import Mathlib.Data.List.Shortlex
import Mathlib.Data.List.TakeWhile
import Mathlib.Logic.Function.Basic
import TableCalc.Address
import TableCalc.Proofs.Text.Ascii

/-!
# Written addresses

The written form of an address says which address it is (`name_injective`). Letters and digits tell
where the column ends and the row begins. The letters of a column are its bijective numeral in base
26, so `columnOfLetters` gets the column back from them, and the row is an ordinary decimal numeral.

No other capital letters stand for the column (`columnLetters_eq_iff`), and columns are in the order
of their letters (`lt_iff_precedes`): first by their number, then alphabetically. For what letters
stand for grows with the letters, one place at a time (`columnOfLetters_append_lt`).
-/

namespace TableCalc.Address

/-- One more than the column with these letters. -/
def columnOfLetters (letters : List Char) : Nat :=
  letters.foldl (fun n c => 26 * n + (c.toNat - 'A'.toNat + 1)) 0

/-- The letters are the capitals in order. -/
lemma toNat_letter {i : Nat} (h : i < 26) : (letter i).toNat = 65 + i := by
  have all : ∀ i : Fin 26, (letter i).toNat = 65 + i := by decide
  exact all ⟨i, h⟩

/-- No letter is a digit. -/
lemma letter_not_digit {i : Nat} (h : i < 26) : (letter i).isDigit = false := by
  have all : ∀ i : Fin 26, (letter i).isDigit = false := by decide
  exact all ⟨i, h⟩

/-- The letters of a column are a numeral for its number, counted from one. -/
lemma columnOfLetters_columnLetters (col : Nat) :
    columnOfLetters (columnLetters col) = col + 1 := by
  have first : 'A'.toNat = 65 := rfl
  induction col using columnLetters.induct with
  | case1 col h =>
    rw [columnLetters, if_pos h]
    simp only [columnOfLetters, List.foldl_cons, List.foldl_nil, toNat_letter h]
    omega
  | case2 col h ih =>
    have last : col % 26 < 26 := Nat.mod_lt _ (by omega)
    rw [columnLetters, if_neg h, columnOfLetters, List.foldl_append]
    rw [columnOfLetters] at ih
    simp only [ih, List.foldl_cons, List.foldl_nil, toNat_letter last]
    omega

/-- Each character of a column is one of the letters. -/
lemma exists_letter_of_mem {col : Nat} {c : Char} (h : c ∈ columnLetters col) :
    ∃ i < 26, c = letter i := by
  induction col using columnLetters.induct with
  | case1 col hcol =>
    rw [columnLetters, if_pos hcol] at h
    exact ⟨col, hcol, List.mem_singleton.1 h⟩
  | case2 col hcol ih =>
    rw [columnLetters, if_neg hcol] at h
    rcases List.mem_append.1 h with h | h
    · exact ih h
    · exact ⟨_, Nat.mod_lt _ (by omega), List.mem_singleton.1 h⟩

/-- No character of a column is a digit. -/
lemma columnLetters_not_digit (col : Nat) : ∀ c ∈ columnLetters col, c.isDigit = false := by
  intro c hc
  obtain ⟨i, hi, rfl⟩ := exists_letter_of_mem hc
  exact letter_not_digit hi

/-- Fewer letters come first, and as many letters are in alphabetical order. -/
def Precedes : List Char → List Char → Prop := List.Shortlex fun c d => c.toNat < d.toNat

instance : Std.Trichotomous Precedes :=
  have : Std.Trichotomous fun c d : Char => c.toNat < d.toNat := InvImage.trichotomous fun _ _ =>
    Char.toNat_inj.1
  List.Shortlex.trichotomous

/-- There are capital letters, and nothing else. -/
def AreCapitals (letters : List Char) : Prop := letters ≠ [] ∧ ∀ c ∈ letters, c.isUpper = true

/-- Each letter is a capital. -/
lemma letter_isUpper {i : Nat} (h : i < 26) : (letter i).isUpper = true :=
  Text.isUpper_iff_toNat.2 (by rw [toNat_letter h]; omega)

/-- The letters of a column are capitals, and there is at least one. -/
lemma areCapitals_columnLetters (col : Nat) : AreCapitals (columnLetters col) := by
  refine ⟨?_, fun c hc => ?_⟩
  · unfold columnLetters
    split <;> simp
  · obtain ⟨i, hi, rfl⟩ := exists_letter_of_mem hc
    exact letter_isUpper hi

/-- The first 26 columns have one letter, and no other columns do. -/
lemma length_columnLetters_le_one_iff {col : Nat} : (columnLetters col).length ≤ 1 ↔ col < 26 := by
  have front := List.length_pos_iff.2 (areCapitals_columnLetters (col / 26 - 1)).1
  rw [columnLetters]
  split
  case isTrue h => simp [h]
  case isFalse h =>
    rw [List.length_append, List.length_singleton]
    omega

/-- The last letter is the digit with the least weight. -/
lemma columnOfLetters_concat {front : List Char} {c : Char} :
    columnOfLetters (front ++ [c]) = 26 * columnOfLetters front + (c.toNat - 'A'.toNat + 1) := by
  simp [columnOfLetters]

/-- No letters but none at all stand for zero. -/
lemma columnOfLetters_pos {letters : List Char} (h : letters ≠ []) :
    0 < columnOfLetters letters := by
  obtain ⟨front, c, rfl⟩ := (List.eq_nil_or_concat letters).resolve_left h
  rw [List.concat_eq_append, columnOfLetters_concat]
  omega

section Order

variable {front front' ls ms : List Char}

/-- What is ahead remains ahead, whatever capital letters follow, if as many follow on either side.
-/
lemma columnOfLetters_append_lt (same : ls.length = ms.length) (hls : ∀ c ∈ ls, c.isUpper = true)
    (h : columnOfLetters front < columnOfLetters front') :
    columnOfLetters (front ++ ls) < columnOfLetters (front' ++ ms) := by
  have first : 'A'.toNat = 65 := rfl
  induction ls generalizing front front' ms with
  | nil =>
    obtain rfl := List.eq_nil_of_length_eq_zero same.symm
    rwa [List.append_nil, List.append_nil]
  | cons b ls ih =>
    obtain ⟨c, ms, rfl⟩ := List.exists_cons_of_length_eq_add_one same.symm
    obtain ⟨hb, hls⟩ := List.forall_mem_cons.1 hls
    have bound := (Text.isUpper_iff_toNat.1 hb).2
    rw [List.append_cons front, List.append_cons front']
    refine ih (Nat.succ.inj same) hls ?_
    rw [columnOfLetters_concat, columnOfLetters_concat]
    omega

/-- Of letters of the same number, those that come first in the dictionary are the smaller numeral.
-/
lemma columnOfLetters_append_lt_of_lex (same : ls.length = ms.length)
    (hls : ∀ c ∈ ls, c.isUpper = true) (h : List.Lex (fun c d => c.toNat < d.toNat) ls ms) :
    columnOfLetters (front ++ ls) < columnOfLetters (front ++ ms) := by
  induction h generalizing front with
  | nil => cases same
  | @cons c ls ms _ ih =>
    rw [List.append_cons front c ls, List.append_cons front c ms]
    exact ih (Nat.succ.inj same) (List.forall_mem_cons.1 hls).2
  | @rel b ls c ms lt =>
    have first : 'A'.toNat = 65 := rfl
    obtain ⟨hb, hls⟩ := List.forall_mem_cons.1 hls
    have bound := (Text.isUpper_iff_toNat.1 hb).1
    rw [List.append_cons front b, List.append_cons front c]
    refine columnOfLetters_append_lt (Nat.succ.inj same) hls ?_
    rw [columnOfLetters_concat, columnOfLetters_concat]
    omega

/-- Shorter letters are a smaller numeral, and so are those that come first. -/
lemma columnOfLetters_lt_of_precedes (hls : ∀ c ∈ ls, c.isUpper = true) (h : Precedes ls ms) :
    columnOfLetters ls < columnOfLetters ms := by
  rcases List.shortlex_def.1 h with shorter | ⟨same, lex⟩
  · -- the last letters of the longer ones are as many, and there are others in front of them
    obtain ⟨extra, len⟩ := Nat.exists_eq_add_of_lt shorter
    have hfront : ms.take (extra + 1) ≠ [] := by
      rw [← List.length_pos_iff, List.length_take]
      omega
    have hback : ls.length = (ms.drop (extra + 1)).length := by
      rw [List.length_drop]
      omega
    rw [← List.take_append_drop (extra + 1) ms]
    exact @columnOfLetters_append_lt [] _ _ _ hback hls (columnOfLetters_pos hfront)
  · exact @columnOfLetters_append_lt_of_lex [] _ _ same hls lex

/-- What capital letters stand for is in the order of the letters. -/
lemma columnOfLetters_lt_iff (hls : ∀ c ∈ ls, c.isUpper = true) (hms : ∀ c ∈ ms, c.isUpper = true) :
    columnOfLetters ls < columnOfLetters ms ↔ Precedes ls ms := by
  refine ⟨fun h => ?_, columnOfLetters_lt_of_precedes hls⟩
  rcases trichotomous_of Precedes ls ms with before | rfl | behind
  · exact before
  · exact absurd h (Nat.lt_irrefl _)
  · exact absurd (columnOfLetters_lt_of_precedes hms behind) (Nat.lt_asymm h)

/-- The letters of a column are the only capital letters that stand for it. -/
theorem columnLetters_eq_iff {col : Nat} {letters : List Char} :
    columnLetters col = letters ↔ AreCapitals letters ∧ columnOfLetters letters = col + 1 := by
  constructor
  · rintro rfl
    exact ⟨areCapitals_columnLetters col, columnOfLetters_columnLetters col⟩
  · rintro ⟨⟨-, upper⟩, h⟩
    have same := (columnOfLetters_columnLetters col).trans h.symm
    rcases trichotomous_of Precedes (columnLetters col) letters with before | eq | behind
    · exact absurd same
        (Nat.ne_of_lt (columnOfLetters_lt_of_precedes (areCapitals_columnLetters col).2 before))
    · exact eq
    · exact absurd same (Nat.ne_of_gt (columnOfLetters_lt_of_precedes upper behind))

/-- Columns are in the order of their letters. -/
theorem lt_iff_precedes {col col' : Nat} :
    col < col' ↔ Precedes (columnLetters col) (columnLetters col') := by
  rw [← columnOfLetters_lt_iff (areCapitals_columnLetters col).2 (areCapitals_columnLetters col').2,
    columnOfLetters_columnLetters, columnOfLetters_columnLetters, Nat.add_lt_add_iff_right]

end Order

/-- An address is written as its column followed by its row, counted from one. -/
lemma toList_name (a : Address) :
    a.name.toList = columnLetters a.col ++ Nat.toDigits 10 (a.row + 1) := by
  simp [name]

/-- The letters of a written address are what stands in front of the first digit. -/
lemma takeWhile_name (a : Address) :
    a.name.toList.takeWhile (!·.isDigit) = columnLetters a.col := by
  have digits : (Nat.toDigits 10 (a.row + 1)).takeWhile (!·.isDigit) = [] := by
    rw [List.takeWhile_eq_nil_iff]
    intro h
    simpa using Nat.isDigit_of_mem_toDigits (by omega) (by omega) (List.getElem_mem h)
  rw [toList_name, List.takeWhile_append_of_pos (by simpa using columnLetters_not_digit a.col),
    digits, List.append_nil]

/-- The written form of an address determines the address. -/
theorem name_injective : Function.Injective name := by
  intro a b h
  have letters : columnLetters a.col = columnLetters b.col := by
    rw [← takeWhile_name, ← takeWhile_name, h]
  have col : a.col = b.col := by
    have := columnOfLetters_columnLetters a.col
    rw [letters, columnOfLetters_columnLetters] at this
    omega
  have digits : Nat.toDigits 10 (a.row + 1) = Nat.toDigits 10 (b.row + 1) := by
    have := congrArg String.toList h
    rwa [toList_name, toList_name, letters, List.append_cancel_left_eq] at this
  have row : a.row + 1 = b.row + 1 := by
    rw [← Nat.ofDigitChars_ten_toDigits (n := a.row + 1), digits, Nat.ofDigitChars_ten_toDigits]
  cases a
  cases b
  simp_all

end TableCalc.Address
