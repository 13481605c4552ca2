import Mathlib.Tactic.Lemma
import TableCalc.Text.Blank

/-!
# Lines

A text is a number of lines, each with a line feed behind it, and a rest without one
(`exists_unlines`). Lines in front of a text are read first, and then those of the text
(`lines_append`). White space at the end of a line is in no word, so the words in the lines are the
same with carriage returns (`words_lines_withReturns`).
-/

namespace TableCalc.Text

/-- The text of these lines, each with a line feed behind it. -/
def unlines (ls : List (List Char)) : List Char := ls.flatMap (· ++ ['\n'])

/-- The text with a carriage return put in front of every line feed. -/
def withReturns (cs : List Char) : List Char := cs.flatMap fun c =>
    if c = '\n' then ['\r', '\n'] else [c]

variable {cs : List Char} {ls : List (List Char)}

/-- The first line comes in front of the others. -/
lemma unlines_cons (l : List Char) (ls : List (List Char)) :
    unlines (l :: ls) = l ++ '\n' :: unlines ls := by
  rw [unlines, List.flatMap_cons, List.append_assoc, List.singleton_append, unlines]

/-- A text is made of whole lines and of what follows the last line feed. -/
lemma exists_unlines (cs : List Char) :
    ∃ ls last, cs = unlines ls ++ last ∧ (∀ l ∈ ls, '\n' ∉ l) ∧ '\n' ∉ last := by
  induction cs with
  | nil => exact ⟨[], [], rfl, by simp, by simp⟩
  | cons c cs ih =>
    obtain ⟨ls, last, rfl, hls, hlast⟩ := ih
    by_cases hc : c = '\n'
    · subst hc
      exact ⟨[] :: ls, last, by rw [unlines_cons]; rfl,
        List.forall_mem_cons.2 ⟨List.not_mem_nil, hls⟩, hlast⟩
    · -- the character is put in front of the first line
      cases ls with
      | nil => exact ⟨[], c :: last, rfl, hls, by simp [Ne.symm hc, hlast]⟩
      | cons l ls =>
        obtain ⟨hl, hls⟩ := List.forall_mem_cons.1 hls
        refine ⟨(c :: l) :: ls, last, by rw [unlines_cons, unlines_cons]; rfl, ?_, hlast⟩
        exact List.forall_mem_cons.2 ⟨by simp [Ne.symm hc, hl], hls⟩

/-- The first line goes up to the first line feed. -/
lemma lines_cons {l : List Char} (h : '\n' ∉ l) (rest : List Char) :
    lines (l ++ '\n' :: rest) = l :: lines rest := by
  obtain ⟨piece, pieces, split⟩ := List.exists_cons_of_ne_nil (List.splitOn_ne_nil '\n' rest)
  rw [lines, lines, List.splitOn_append_cons_self_of_not_mem h, split, List.getLast?_cons_cons,
    List.dropLast_cons_cons]
  split <;> rfl

/-- Whole lines in front of a text are read as lines. -/
theorem lines_append (h : ∀ l ∈ ls, '\n' ∉ l) (rest : List Char) :
    lines (unlines ls ++ rest) = ls ++ lines rest := by
  induction ls with
  | nil => rfl
  | cons l ls ih =>
    obtain ⟨hl, hls⟩ := List.forall_mem_cons.1 h
    rw [unlines_cons, List.append_assoc, List.cons_append, lines_cons hl, ih hls, List.cons_append]

/-- Carriage returns are added piece by piece. -/
lemma withReturns_append (ds : List Char) :
    withReturns (cs ++ ds) = withReturns cs ++ withReturns ds :=
  List.flatMap_append

/-- Nothing is added where no line ends. -/
lemma withReturns_of_not_mem (h : '\n' ∉ cs) : withReturns cs = cs := by
  induction cs with
  | nil => rfl
  | cons c cs ih =>
    rw [List.mem_cons, not_or] at h
    rw [withReturns, List.flatMap_cons, if_neg (Ne.symm h.1), ← withReturns, ih h.2,
      List.singleton_append]

/-- The carriage returns are at the ends of the lines. -/
lemma withReturns_unlines (h : ∀ l ∈ ls, '\n' ∉ l) :
    withReturns (unlines ls) = unlines (ls.map (· ++ ['\r'])) := by
  induction ls with
  | nil => rfl
  | cons l ls ih =>
    obtain ⟨hl, hls⟩ := List.forall_mem_cons.1 h
    rw [List.map_cons, unlines_cons,
      unlines_cons, withReturns_append, withReturns_of_not_mem hl, ← ih hls,
      List.append_assoc]
    rfl

/-- White space at the end makes no word. -/
lemma words_append_blank {c : Char} (hc : isBlank c = true) : words (cs ++ [c]) = words cs := by
  rw [words, List.splitOnP_append_cons cs [] hc, List.splitOnP_nil, List.filter_append, words]
  exact List.append_nil _

/-- Carriage returns change no word of any line. -/
theorem words_lines_withReturns (cs : List Char) :
    (lines (withReturns cs)).map words = (lines cs).map words := by
  obtain ⟨ls, last, rfl, hls, hlast⟩ := exists_unlines cs
  have clear : ∀ l ∈ ls.map (· ++ ['\r']), '\n' ∉ l := by
    intro _ hmem
    obtain ⟨l, hl, rfl⟩ := List.mem_map.1 hmem
    simp [hls l hl]
  have same : words ∘ (· ++ ['\r']) = words := funext fun l => words_append_blank rfl
  rw [withReturns_append, withReturns_unlines hls, withReturns_of_not_mem hlast, lines_append clear,
    lines_append hls,
    List.map_append, List.map_append, List.map_map, same]

end TableCalc.Text
