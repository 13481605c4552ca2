import Mathlib.Tactic.Lemma
import TableCalc.Text.Blank

/-!
# Words and the white space around them

The words of a text are not empty, and there is no white space in them. A text with spaces between
words has no other white space if it is put together of such texts (`Spaced.append`). What is
trimmed off a text is white space (`exists_trim`), and all there is at its ends (`trim_eq`).
-/

namespace TableCalc.Text

/-- There is no white space among the characters. -/
def Unblank (cs : List Char) : Prop := ∀ c ∈ cs, isBlank c = false

/-- There is no white space among the characters but for spaces. -/
def Spaced (cs : List Char) : Prop := ∀ c ∈ cs, isBlank c = true → c = ' '

/-- All characters are white space. -/
def Blank (cs : List Char) : Prop := ∀ c ∈ cs, isBlank c = true

instance : DecidablePred Unblank := fun cs => List.decidableBAll (fun c => isBlank c = false) cs

instance : DecidablePred Spaced :=
  fun cs => List.decidableBAll (fun c => isBlank c = true → c = ' ') cs

/-- Two texts without white space have none together. -/
lemma Unblank.append {cs ds : List Char} (h : Unblank cs) (h' : Unblank ds) : Unblank (cs ++ ds) :=
  List.forall_mem_append.2 ⟨h, h'⟩

/-- A text without white space has none but blanks. -/
lemma Unblank.spaced {cs : List Char} (h : Unblank cs) : Spaced cs :=
  fun c hc blank => by simp [h c hc] at blank

/-- Two texts with no white space but blanks have none other together. -/
lemma Spaced.append {cs ds : List Char} (h : Spaced cs) (h' : Spaced ds) : Spaced (cs ++ ds) :=
  List.forall_mem_append.2 ⟨h, h'⟩

/-- No word is empty. -/
lemma ne_nil_of_mem_words {cs w : List Char} (h : w ∈ words cs) : w ≠ [] := by
  simpa using (List.mem_filter.1 h).2

/-- No piece between separators has a separator in it. -/
lemma not_of_mem_splitOnP {p : Char → Bool} {cs piece : List Char} {c : Char}
    (h : piece ∈ cs.splitOnP p) (hc : c ∈ piece) : p c = false := by
  induction cs generalizing piece with
  | nil => simp_all
  | cons d cs ih =>
    rw [List.splitOnP_cons_eq_if_modifyHead] at h
    split at h
    case isTrue _ =>
      rcases List.mem_cons.1 h with rfl | h
      · cases hc
      · exact ih h hc
    case isFalse hd =>
      -- the first piece of the rest goes on with `d`
      obtain ⟨first, pieces, split⟩ := List.exists_cons_of_ne_nil (List.splitOnP_ne_nil p cs)
      rw [split, List.modifyHead_cons] at h
      rcases List.mem_cons.1 h with rfl | h
      · rcases List.mem_cons.1 hc with rfl | hc
        · simpa using hd
        · exact ih (by simp [split]) hc
      · exact ih (by simp [split, h]) hc

/-- A word has no white space. -/
lemma unblank_of_mem_words {cs w : List Char} (h : w ∈ words cs) : Unblank w :=
  fun _ => not_of_mem_splitOnP (List.mem_filter.1 h).1

/-- What is taken while it is white space is white space. -/
lemma blank_takeWhile (cs : List Char) : Blank (cs.takeWhile isBlank) :=
  List.all_eq_true.1 List.all_takeWhile

/-- White space is white space from either end. -/
lemma Blank.reverse {cs : List Char} (h : Blank cs) : Blank cs.reverse :=
  fun c hc => h c (List.mem_reverse.1 hc)

/-- White space in front is dropped, and nothing else. -/
lemma dropWhile_blank_append {before cs : List Char} (h : Blank before) (hne : cs ≠ [])
    (first : isBlank (cs.head hne) = false) : (before ++ cs).dropWhile isBlank = cs := by
  obtain ⟨c, cs, rfl⟩ := List.exists_cons_of_ne_nil hne
  rw [List.dropWhile_append_of_pos h, List.dropWhile_cons, if_neg (by simpa using first)]

/-- What is trimmed off is white space. -/
lemma exists_trim (cs : List Char) : ∃ before after, cs = before ++ trim cs ++ after ∧
    Blank before ∧ Blank after := by
  refine ⟨_, _, ?_, blank_takeWhile cs, (blank_takeWhile (cs.dropWhile isBlank).reverse).reverse⟩
  rw [trim, List.append_assoc, ← List.reverse_append, List.takeWhile_append_dropWhile,
    List.reverse_reverse,
    List.takeWhile_append_dropWhile]

/-- White space is trimmed off up to the first and the last character that is none. -/
lemma trim_eq {before core after : List Char} (hbefore : Blank before) (hafter : Blank after)
    (hne : core ≠ [])
    (first : isBlank (core.head hne) = false) (last : isBlank (core.getLast hne) = false) :
    trim (before ++ core ++ after) = core := by
  have front : (before ++ core ++ after).dropWhile isBlank = core ++ after := by
    rw [List.append_assoc]
    exact dropWhile_blank_append hbefore (by simp [hne]) (by rwa [List.head_append_of_ne_nil hne])
  have back : (core ++ after).reverse.dropWhile isBlank = core.reverse := by
    rw [List.reverse_append]
    exact dropWhile_blank_append hafter.reverse (by simpa using hne) (by rwa [List.head_reverse])
  rw [trim, front, back, List.reverse_reverse]

end TableCalc.Text
