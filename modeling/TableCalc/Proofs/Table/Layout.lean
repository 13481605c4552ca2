import Mathlib.Tactic.Lemma
import TableCalc.Table.Layout

/-!
# Reading a layout back

A rendered table is taken apart with no more than its layout and its size. Each cell is taken to end
at the first character of the delimiter, so what is read back is what was shown, wherever that
character stands in no shown cell (`readBack?_render`). The decoder may leave a rest: each lemma
about a part of it has the text of the part in front of an arbitrary rest, and the parts can be
joined.
-/

namespace TableCalc

namespace Layout

/-- Reads cells, each with the delimiter behind it, and leaves the rest. -/
def readCells? (l : Layout) : (width : Nat) → (cs : List Char) → Option (List String × List Char)
  | 0, cs => some ([], cs)
  | width + 1, cs => do
    let c ← l.delimiter.toList.head?
    let rest ← l.delimiter.toList.isPrefixOf? (cs.dropWhile (· ≠ c))
    let (cells, rest) ← l.readCells? width rest
    return (String.ofList (cs.takeWhile (· ≠ c)) :: cells, rest)

/-- Reads rows, each with the line ending behind it, and leaves the rest. -/
def readRows? (l : Layout) (width : Nat) :
    (height : Nat) → (cs : List Char) → Option (List (List String) × List Char)
  | 0, cs => some ([], cs)
  | height + 1, cs => do
    let (cells, rest) ← l.readCells? width cs
    let rest ← l.lineEnding.text.toList.isPrefixOf? rest
    let (rows, rest) ← l.readRows? width height rest
    return (cells :: rows, rest)

/-- Reads the cells of a rendered table of this size, row by row, and leaves the rest. -/
def readBack? (l : Layout) (height width : Nat) (text : String) :
    Option (List (List String) × String) := do
  let cs ←
    if l.leadingBlankLine then l.lineEnding.text.toList.isPrefixOf? text.toList
    else some text.toList
  let (rows, rest) ← l.readRows? width height cs
  return (rows, String.ofList rest)

/-- What a text starts with can be taken off. -/
lemma isPrefixOf?_append {start rest : List Char} :
    start.isPrefixOf? (start ++ rest) = some rest := by
  induction start with
  | nil => rfl
  | cons c start ih =>
    show (if c == c then start.isPrefixOf? (start ++ rest) else none) = some rest
    rw [if_pos (beq_self_eq_true c), ih]

variable {l : Layout} {c : Char}

/-- A character that is not in a text is none of its characters. -/
lemma forall_ne {cs : List Char} (h : c ∉ cs) : ∀ d ∈ cs, decide (d ≠ c) = true := by
  intro d hd
  exact decide_eq_true fun e => h (e ▸ hd)

/-- Up to the delimiter there is the cell and nothing else. -/
lemma takeWhile_cell {cell : String} {rest : List Char} (hc : l.delimiter.toList.head? = some c)
    (clear : c ∉ cell.toList) :
    ((cell ++ l.delimiter).toList ++ rest).takeWhile (· ≠ c) = cell.toList := by
  obtain ⟨further, hdelimiter⟩ := List.head?_eq_some_iff.1 hc
  rw [String.toList_append, List.append_assoc, List.takeWhile_append_of_pos (forall_ne clear),
    hdelimiter,
    List.cons_append, List.takeWhile_cons_of_neg (by simp), List.append_nil]

/-- A cell ends where the delimiter starts. -/
lemma dropWhile_cell {cell : String} {rest : List Char} (hc : l.delimiter.toList.head? = some c)
    (clear : c ∉ cell.toList) :
    ((cell ++ l.delimiter).toList ++ rest).dropWhile (· ≠ c) = l.delimiter.toList ++ rest := by
  obtain ⟨further, hdelimiter⟩ := List.head?_eq_some_iff.1 hc
  rw [String.toList_append, List.append_assoc, List.dropWhile_append_of_pos (forall_ne clear),
    hdelimiter,
    List.cons_append, List.dropWhile_cons_of_neg (by simp)]

/-- The cells of a row are read back, up to the rest of the text. -/
lemma readCells?_append {cells : List String} {rest : List Char}
    (hc : l.delimiter.toList.head? = some c) (clear : ∀ cell ∈ cells, c ∉ cell.toList) :
    l.readCells? cells.length ((String.join (cells.map (· ++ l.delimiter))).toList ++ rest) =
      some (cells, rest) := by
  induction cells with
  | nil => simp [readCells?]
  | cons cell cells ih =>
    obtain ⟨first, further⟩ := List.forall_mem_cons.1 clear
    rw [List.map_cons, String.join_cons, String.toList_append, List.append_assoc, List.length_cons,
      readCells?, hc]
    simp only [takeWhile_cell hc first, dropWhile_cell hc first, isPrefixOf?_append, ih further,
      Option.bind_eq_bind,
      Option.bind_some, Option.pure_def, String.ofList_toList]

/-- The rows of a table are read back, up to the rest of the text. -/
lemma readRows?_append {width : Nat} {rows : List (List String)} {rest : List Char}
    (hc : l.delimiter.toList.head? = some c) (hwidth : ∀ cells ∈ rows, cells.length = width)
    (clear : ∀ cells ∈ rows, ∀ cell ∈ cells, c ∉ cell.toList) :
    l.readRows? width rows.length ((String.join (rows.map l.renderRow)).toList ++ rest) =
      some (rows, rest) := by
  induction rows with
  | nil => simp [readRows?]
  | cons cells rows ih =>
    obtain ⟨first, further⟩ := List.forall_mem_cons.1 clear
    obtain ⟨rfl, hwidth⟩ := List.forall_mem_cons.1 hwidth
    rw [List.map_cons, String.join_cons, String.toList_append, renderRow, String.toList_append,
      List.append_assoc,
      List.append_assoc, List.length_cons, readRows?]
    simp only [readCells?_append hc first, isPrefixOf?_append, ih hwidth further,
      Option.bind_eq_bind, Option.bind_some,
      Option.pure_def]

/-- Rows of cells are read back as they were, and nothing is left. -/
lemma readBack?_renderRows {width : Nat} {rows : List (List String)}
    (hc : l.delimiter.toList.head? = some c)
    (hwidth : ∀ cells ∈ rows, cells.length = width)
    (clear : ∀ cells ∈ rows, ∀ cell ∈ cells, c ∉ cell.toList) :
    l.readBack? rows.length width (l.renderRows rows) = some (rows, "") := by
  have read : l.readRows? width rows.length (String.join (rows.map l.renderRow)).toList =
      some (rows, []) := by
    rw [← readRows?_append hc hwidth clear, List.append_nil]
  unfold readBack? renderRows
  split
  · rw [String.toList_append, isPrefixOf?_append]
    simp only [read, Option.bind_eq_bind, Option.bind_some, Option.pure_def, String.ofList_nil]
  · simp only [String.empty_append, read, Option.bind_eq_bind, Option.bind_some, Option.pure_def,
      String.ofList_nil]

end Layout

namespace Table

variable {t : Table}

/-- As many rows are shown as the table has. -/
lemma length_displayGrid : t.displayGrid.length = t.height := by
  simp [displayGrid]

/-- Every shown cell stands at a place of the table. -/
lemma mem_displayGrid {cells : List String} (h : cells ∈ t.displayGrid) :
    cells.length = t.width ∧
      ∀ cell ∈ cells, ∃ row < t.height, ∃ col < t.width, t.display row col = cell := by
  obtain ⟨row, hrow, rfl⟩ := List.mem_map.1 h
  refine ⟨by simp, fun cell hcell => ?_⟩
  obtain ⟨col, hcol, rfl⟩ := List.mem_map.1 hcell
  exact ⟨row, List.mem_range.1 hrow, col, List.mem_range.1 hcol, rfl⟩

end Table

/-- A table is read back from its text as it is shown, and nothing is left. -/
theorem Layout.readBack?_render {l : Layout} {t : Table} {c : Char}
    (hc : l.delimiter.toList.head? = some c)
    (clear : ∀ row < t.height, ∀ col < t.width, c ∉ (t.display row col).toList) :
    l.readBack? t.height t.width (l.render t) = some (t.displayGrid, "") := by
  rw [render, ← Table.length_displayGrid]
  refine readBack?_renderRows hc (fun cells hcells => (Table.mem_displayGrid hcells).1)
    fun cells hcells cell hcell => ?_
  obtain ⟨row, hrow, col, hcol, rfl⟩ := (Table.mem_displayGrid hcells).2 cell hcell
  exact clear row hrow col hcol

end TableCalc
