import TableCalc.Proofs.Table.Reader
import TableCalc.Proofs.Text.Lines

/-!
# Line endings, and what stands behind the last row

The reader sees of a text only the words in its lines, and of those only the lines of the rows
(`readRows_congr`, `ofText_congr`). So it does not matter whether there are carriage returns in
front of the line feeds, nor what stands behind the last row.
-/

namespace TableCalc.Reader

/-- How a row is read depends on its words alone. -/
lemma readRows_congr {count row : Nat} {lines lines' : List (List Char)} {t : Table}
    (same : (lines.take count).map Text.words = (lines'.take count).map Text.words) :
    readRows count row lines t = readRows count row lines' t := by
  induction count generalizing row lines lines' t with
  | zero => rfl
  | succ count ih =>
    cases lines with
    | nil =>
      cases lines' with
      | nil => rfl
      | cons line' lines' => cases same
    | cons line lines =>
      cases lines' with
      | nil => cases same
      | cons line' lines' =>
        obtain ⟨head, tail⟩ := List.cons_eq_cons.1 same
        simp only [readRows, head, ih tail]

/-- The height of a new table is the one that the first line gives. -/
lemma readDimension_of_readHeader {line : List Char} {t : Table} (h : readHeader line = .ok t) :
    readDimension .height (Text.words line)[0]? = .ok t.height := by
  unfold readHeader at h
  cases hheight : readDimension .height (Text.words line)[0]? with
  | error e => simp [hheight, bind, Except.bind] at h
  | ok height =>
    cases hwidth : readDimension .width (Text.words line)[1]? with
    | error e => simp [hheight, hwidth, bind, Except.bind] at h
    | ok width =>
      simp only [hheight, hwidth, bind, Except.bind] at h
      revert h
      fun_cases Table.empty width height <;> rintro ⟨⟩
      rfl

/-- The reader depends on the words of the first line, and on those of as many lines behind it as
the first one says. -/
lemma ofText_congr {text text' : String} (header : headerWords text = headerWords text')
    (rows : ∀ height, readDimension .height (headerWords text)[0]? = .ok height →
      ((Text.lines text.toList).tail.take height).map Text.words =
        ((Text.lines text'.toList).tail.take height).map Text.words) :
    Table.ofText text = Table.ofText text' := by
  have same : readHeader ((Text.lines text.toList).head?.getD []) =
      readHeader ((Text.lines text'.toList).head?.getD []) := by
    rw [headerWords, headerWords] at header
    rw [readHeader, header, readHeader]
  simp only [Table.ofText, ← same]
  cases hread : readHeader ((Text.lines text.toList).head?.getD []) with
  | error e => rfl
  | ok t => exact readRows_congr (rows t.height (readDimension_of_readHeader hread))

/-- The words of the header are those of the first line. -/
lemma headerWords_eq (text : String) :
    headerWords text = ((Text.lines text.toList).map Text.words).head?.getD [] := by
  rw [headerWords]
  cases Text.lines text.toList <;> rfl

/-- Carriage returns in front of the line feeds are not seen. -/
lemma ofText_withReturns (text : String) :
    Table.ofText (String.ofList (Text.withReturns text.toList)) = Table.ofText text := by
  have words : (Text.lines (String.ofList (Text.withReturns text.toList)).toList).map Text.words =
      (Text.lines text.toList).map Text.words := by
    rw [String.toList_ofList, Text.words_lines_withReturns]
  refine ofText_congr ?_ fun height _ => ?_
  · rw [headerWords_eq, words, headerWords_eq]
  · rw [List.map_take, List.map_tail, words, List.map_take, List.map_tail]

/-- What stands behind the last row is not seen. -/
lemma ofText_append {p : String} {ls : List (List Char)} {word : List Char} {height : Nat}
    (hp : p.toList = Text.unlines ls) (hls : ∀ l ∈ ls, '\n' ∉ l) (count : ls.length = height + 1)
    (hword : (headerWords p)[0]? = some word) (size : IsSize word height) (u v : String) :
    Table.ofText (p ++ u) = Table.ofText (p ++ v) := by
  obtain ⟨first, rows, rfl⟩ := List.exists_cons_of_length_eq_add_one count
  have lines : ∀ s : String, Text.lines (p ++ s).toList = first :: rows ++ Text.lines s.toList := by
    intro s
    rw [String.toList_append, hp, Text.lines_append hls]
  have header : ∀ s : String, headerWords (p ++ s) = Text.words first := by
    intro s
    rw [headerWords, lines]
    rfl
  refine ofText_congr (by rw [header, header]) fun height' hheight' => ?_
  -- the rows are all there in front of the rest
  obtain rfl : height' = rows.length := by
    have own : headerWords p = Text.words first := by rw [← header "", String.append_empty]
    rw [header, ← own, readDimension_eq_ok_iff.2 ⟨word, hword, size⟩] at hheight'
    cases hheight'
    exact (Nat.succ.inj count).symm
  have whole : ∀ s : String, (Text.lines (p ++ s).toList).tail.take rows.length = rows := by
    intro s
    rw [lines]
    exact List.take_left
  rw [whole, whole]

/-- Neither carriage returns in front of the line feeds nor what stands behind the last row changes
the outcome of reading: the table or the fault, and the warnings. -/
theorem ofText_up_to_line_endings :
    (∀ text : String,
      Table.ofText (String.ofList (Text.withReturns text.toList)) = Table.ofText text) ∧
    ∀ (p : String) (ls : List (List Char)) (word : List Char) (height : Nat),
      p.toList = Text.unlines ls → (∀ l ∈ ls, '\n' ∉ l) → ls.length = height + 1 →
      (headerWords p)[0]? = some word → IsSize word height →
      ∀ u v : String, Table.ofText (p ++ u) = Table.ofText (p ++ v) :=
  ⟨ofText_withReturns, fun _ _ _ _ => ofText_append⟩

/-- A table of one row, with carriage returns and with more text behind it. -/
theorem ofText_up_to_line_endings_row :
    Table.ofText "1 1\r\n2\r\n" = Table.ofText "1 1\n2\n" ∧
    "1 1\n2\n".toList = Text.unlines ["1 1".toList, "2".toList] ∧
    (headerWords "1 1\n2\n")[0]? = some ['1'] ∧ IsSize ['1'] 1 ∧
    Table.ofText ("1 1\n2\n" ++ "3\n") = Table.ofText ("1 1\n2\n" ++ "\r!") := by
  obtain ⟨returns, rest⟩ := ofText_up_to_line_endings
  have lines : "1 1\n2\n".toList = Text.unlines ["1 1".toList, "2".toList] := by decide
  have hword : (headerWords "1 1\n2\n")[0]? = some ['1'] := by decide
  have size : IsSize ['1'] 1 := ⟨['1'], .inl rfl, by decide, by decide, by decide⟩
  refine ⟨?_, lines, hword, size, rest _ _ _ _ lines (by decide) rfl hword size _ _⟩
  rw [← returns "1 1\n2\n"]
  rfl

end TableCalc.Reader
