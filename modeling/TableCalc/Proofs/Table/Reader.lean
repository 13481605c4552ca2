import Mathlib.Data.Nat.Find
import Mathlib.Tactic.ByContra
import TableCalc.Proofs.Cell
import TableCalc.Proofs.Table.Format
import TableCalc.Proofs.Text.Blank

/-!
# What a text is read as

The reader keeps to the format: it does what the rules say of a text (`Reads.ofText_eq`), and there
is a rule for every text (`exists_reads`), so it accepts nothing else and reports no other fault
(`ofText_eq_iff_reads`).

`ReadUpTo` is the invariant on the way: the table has the cells that stand before the next place,
and no others. A token takes the reader to the next place (`ReadUpTo.setCell`), a row to the next
row (`ReadUpTo.readRow`).
-/

namespace TableCalc.Reader

/-- A dimension is read as the size that the word is. -/
lemma dimensionValue?_eq_some_iff {word : List Char} {n : Nat} :
    dimensionValue? word = some n ↔ IsSize word n := by
  unfold dimensionValue?
  split
  case h_1 digits =>
    rw [Text.size?, Text.numeralBelow?_eq_some_iff]
    refine ⟨fun h => ⟨digits, .inr rfl, h⟩, ?_⟩
    rintro ⟨digits', rfl | h, numeral, value⟩
    · simp [Text.IsNumeral] at numeral
    · cases h
      exact ⟨numeral, value⟩
  case h_2 hplus =>
    rw [Text.size?, Text.numeralBelow?_eq_some_iff]
    refine ⟨fun h => ⟨word, .inl rfl, h⟩, ?_⟩
    rintro ⟨digits, rfl | rfl, h⟩
    · exact h
    · exact absurd rfl (hplus digits)

/-- A dimension is read if there is a word and it is a size. -/
lemma readDimension_eq_ok_iff {d word? n} :
    readDimension d word? = .ok n ↔ ∃ word, word? = some word ∧ IsSize word n := by
  cases word? with
  | none => simp [readDimension]
  | some word =>
    simp only [readDimension, Option.some.injEq, exists_eq_left', ← dimensionValue?_eq_some_iff]
    cases dimensionValue? word <;> simp

/-- A dimension that is missing or no size is reported. -/
lemma readDimension_of_fault {d word? e} (h : DimensionFault d word? e) :
    readDimension d word? = .error e := by
  cases h with
  | missing => rfl
  | @invalid word h =>
    have none : dimensionValue? word = none :=
      Option.eq_none_iff_forall_ne_some.2 fun n hn => h n (dimensionValue?_eq_some_iff.1 hn)
    simp [readDimension, none]

/-- A word is a size, or the dimension is at fault. -/
lemma exists_size_or_fault (d : Dimension) (word? : Option (List Char)) :
    (∃ word n, word? = some word ∧ IsSize word n) ∨ ∃ e, DimensionFault d word? e := by
  cases word? with
  | none => exact .inr ⟨_, .missing⟩
  | some word =>
    by_cases h : ∃ n, IsSize word n
    · obtain ⟨n, h⟩ := h
      exact .inl ⟨word, n, rfl, h⟩
    · exact .inr ⟨_, .invalid (not_exists.1 h)⟩

/-- A size beyond the limits is refused. -/
lemma empty_of_fault {height width cause} (h : SizeFault height width cause) :
    Table.empty width height = .error cause := by
  unfold Table.empty maxRows maxColumns
  cases h with
  | rows rows => rw [if_pos rows]
  | columns rows columns => rw [if_neg (by omega), if_pos columns]
  | empty rows none => rw [if_neg (by omega), if_neg (by omega), if_pos none]

/-- A size within the limits is taken. -/
lemma empty_of_fits {height width} (h : ∀ cause, ¬ SizeFault height width cause) :
    Table.empty width height = .ok { width, height } := by
  have rows : ¬ 25 < height := fun hr => h _ (.rows hr)
  have columns : ¬ 8 < width := fun hc => h _ (.columns (by omega) hc)
  have width : width ≠ 0 := fun hw => h _ (.empty (by omega) hw)
  rw [Table.empty, maxRows, maxColumns, if_neg rows, if_neg columns, if_neg width]

/-- The reader stands before a place: the cells before it are in the table, and no others. -/
structure ReadUpTo (text : String) (height width row col : Nat) (t : Table) : Prop where
  height_eq : t.height = height
  width_eq : t.width = width
  computed : t.computed = ∅
  raw : ∀ a : Address, t.raw[a]? =
    if a.col < width ∧ (a.row < row ∨ a.row = row ∧ a.col < col) then cell? text a else none

variable {text : String} {height width row col : Nat} {t t' : Table} {tokens : List String}
  {token : String}

/-- At first nothing is read. -/
lemma readUpTo_empty : ReadUpTo text height width 0 0 { width, height } := ⟨rfl, rfl, rfl, by simp⟩

namespace ReadUpTo

/-- At the end of a row the next one begins. -/
lemma nextRow (h : ReadUpTo text height width row width t) :
    ReadUpTo text height width (row + 1) 0 t := by
  refine ⟨h.height_eq, h.width_eq, h.computed, fun a => (h.raw a).trans (if_congr ?_ rfl rfl)⟩
  omega

/-- In the end all is read. -/
lemma hasCells (h : ReadUpTo text height width height 0 t) : HasCells text height width t := by
  refine ⟨h.height_eq, h.width_eq, h.computed, fun a => (h.raw a).trans (if_congr ?_ rfl rfl)⟩
  omega

/-- Behind a place, its cell is in the table as well. -/
lemma next {raw : Grid} (h : ReadUpTo text height width row col t) (hcol : col < width)
    (same : ∀ a : Address, raw[a]? = if a = ⟨row, col⟩ then cell? text a else t.raw[a]?) :
    ReadUpTo text height width row (col + 1) { t with raw } := by
  refine ⟨h.height_eq, h.width_eq, h.computed, fun a => ?_⟩
  rw [same, h.raw]
  by_cases ha : a = ⟨row, col⟩
  · subst ha
    simp [hcol]
  · have place : ¬ (a.row = row ∧ a.col = col) := by
      rintro ⟨rfl, rfl⟩
      exact ha rfl
    rw [if_neg ha]
    refine if_congr ?_ rfl rfl
    omega

/-- A place before the end is inside the table. -/
lemma inside (h : ReadUpTo text height width row col t) (hrow : row < height) (hcol : col < width) :
    row < t.height ∧ col < t.width :=
  ⟨h.height_eq ▸ hrow, h.width_eq ▸ hcol⟩

end ReadUpTo

/-- No token is empty. -/
lemma ne_empty_of_getElem? (htokens : rowTokens? text row = some tokens)
    (h : tokens[col]? = some token) :
    token ≠ "" := by
  obtain ⟨line, -, rfl⟩ := Option.map_eq_some_iff.1 htokens
  obtain ⟨word, hword, rfl⟩ := List.mem_map.1 (List.mem_of_getElem? h)
  intro hempty
  exact Text.ne_nil_of_mem_words hword (String.ofList_eq_empty_iff.1 hempty)

/-- At each place stands the cell of its token, if the token is one of a cell. -/
lemma cell?_eq (htokens : rowTokens? text row = some tokens) (h : tokens[col]? = some token) :
    cell? text ⟨row, col⟩ = (Cell.parse token).toOption := by
  simp [cell?, htokens, h]

/-- A token for a cell is parsed, and the cell put at its place. -/
lemma run_setCell_of_ne (inside : row < t.height ∧ col < t.width) (hne : token ≠ "")
    (hnull : token ≠ "null") :
    (Table.setCell row col (some token)).run.run t = match Cell.parse token with
      | .error e => (.error e, t)
      | .ok cell => (.ok (), { t with raw := t.raw.insert ⟨row, col⟩ cell }) := by
  have kept : (some token).filter (fun s => s ≠ "" ∧ s ≠ emptyCell) = some token := by
    simp [Option.filter, hne, emptyCell, hnull]
  cases hcell : Cell.parse token <;>
    simp only [Table.run_setCell, Table.address, if_pos inside, kept, hcell]

/-- A token without fault takes the reader to the next place. -/
lemma ReadUpTo.setCell (h : ReadUpTo text height width row col t) (hrow : row < height)
    (hcol : col < width)
    (htokens : rowTokens? text row = some tokens) (htoken : tokens[col]? = some token)
    (sound : ¬ IsFaulty token) :
    ∃ t', (Table.setCell row col (some token)).run.run t = (.ok (), t') ∧
      ReadUpTo text height width row (col + 1) t' := by
  have here : t.raw[(⟨row, col⟩ : Address)]? = none := by simp [h.raw]
  by_cases hnull : token = "null"
  · subst hnull
    refine ⟨t, ?_, h.next hcol fun a => ?_⟩
    · rw [Table.run_setCell, Table.address, if_pos (h.inside hrow hcol)]
      rfl
    · split
      case isTrue ha =>
        rw [ha, here, cell?_eq htokens htoken]
        rfl
      case isFalse _ => rfl
  · obtain ⟨cell, hcell⟩ : ∃ cell, Cell.parse token = .ok cell := by
      by_contra! hfaulty
      exact sound ⟨hnull, hfaulty⟩
    refine ⟨{ t with raw := t.raw.insert ⟨row, col⟩ cell }, ?_, h.next hcol fun a => ?_⟩
    · rw [run_setCell_of_ne (h.inside hrow hcol) (ne_empty_of_getElem? htokens htoken) hnull, hcell]
    · rw [Grid.getElem?_insert]
      by_cases ha : a = ⟨row, col⟩
      · rw [if_pos ha.symm, if_pos ha, ha, cell?_eq htokens htoken, hcell]
        rfl
      · rw [if_neg (Ne.symm ha), if_neg ha]

/-- A token with a fault leaves the table as it is. -/
lemma ReadUpTo.setCell_of_faulty (h : ReadUpTo text height width row col t) (hrow : row < height)
    (hcol : col < width) (htokens : rowTokens? text row = some tokens)
    (htoken : tokens[col]? = some token) (faulty : IsFaulty token) :
    (Table.setCell row col (some token)).run.run t = (.error (.unknownFormat token), t) := by
  rw [run_setCell_of_ne (h.inside hrow hcol) (ne_empty_of_getElem? htokens htoken) faulty.1]
  cases hcell : Cell.parse token with
  | ok cell => exact absurd hcell (faulty.2 cell)
  | error e => rw [Cell.parse_eq_error hcell]

/-- The next token of a row is that of the next column. -/
lemma getElem?_of_drop {rest} (h : (tokens.take width).drop col = token :: rest) :
    col < width ∧ tokens[col]? = some token ∧ (tokens.take width).drop (col + 1) = rest := by
  have head : (tokens.take width)[col]? = some token := by
    rw [← Nat.add_zero col, ← List.getElem?_drop, h]
    rfl
  rw [List.getElem?_take] at head
  split at head
  case isTrue hcol =>
    refine ⟨hcol, head, ?_⟩
    rw [← List.drop_drop, h]
    rfl
  case isFalse _ => cases head

/-- A token that can be set is followed by the rest of the row. -/
lemma readCells_cons {rest} (h : (Table.setCell row col (some token)).run.run t = (.ok (), t')) :
    readCells row col (token :: rest) t = readCells row (col + 1) rest t' := by
  rw [readCells, h]

/-- A token that cannot be set is reported. -/
lemma readCells_cons_of_error {rest e}
    (h : (Table.setCell row col (some token)).run.run t = (.error e, t')) :
    readCells row col (token :: rest) t = .error (.badCell ⟨row, col⟩ token e) := by
  rw [readCells, h]

/-- Tokens without fault take the reader behind the last of them. -/
lemma ReadUpTo.readCells {rest} (h : ReadUpTo text height width row col t) (hrow : row < height)
    (htokens : rowTokens? text row = some tokens) (hrest : (tokens.take width).drop col = rest)
    (sound : ∀ token ∈ rest, ¬ IsFaulty token) :
    ∃ t', readCells row col rest t = .ok t' ∧
      ReadUpTo text height width row (col + rest.length) t' := by
  induction rest generalizing col t with
  | nil => exact ⟨t, rfl, h⟩
  | cons token rest ih =>
    obtain ⟨hcol, htoken, hrest⟩ := getElem?_of_drop hrest
    obtain ⟨hsound, sound⟩ := List.forall_mem_cons.1 sound
    obtain ⟨t₁, hset, h₁⟩ := h.setCell hrow hcol htokens htoken hsound
    obtain ⟨t', hread, h'⟩ := ih h₁ hrest sound
    refine ⟨t', (readCells_cons hset).trans hread, ?_⟩
    rwa [List.length_cons, ← Nat.succ_add_eq_add_succ]

/-- The first token with a fault is reported. -/
lemma ReadUpTo.readCells_of_faulty {rest i} (h : ReadUpTo text height width row col t)
    (hrow : row < height)
    (htokens : rowTokens? text row = some tokens) (hrest : (tokens.take width).drop col = rest)
    (htoken : rest[i]? = some token) (faulty : IsFaulty token)
    (before : ∀ j < i, ∀ other, rest[j]? = some other → ¬ IsFaulty other) :
    Reader.readCells row col rest t =
      .error (.badCell ⟨row, col + i⟩ token (.unknownFormat token)) := by
  induction rest generalizing col t i with
  | nil => cases htoken
  | cons first rest ih =>
    obtain ⟨hcol, hfirst, hrest⟩ := getElem?_of_drop hrest
    cases i with
    | zero =>
      cases htoken
      exact readCells_cons_of_error (h.setCell_of_faulty hrow hcol htokens hfirst faulty)
    | succ i =>
      obtain ⟨t₁, hset, h₁⟩ := h.setCell hrow hcol htokens hfirst (before 0 (by omega) first rfl)
      rw [readCells_cons hset, show col + (i + 1) = col + 1 + i by omega]
      exact ih h₁ hrest htoken fun j hj other hother => before (j + 1) (by omega) other hother

/-- A row with a faulty token in one of the columns has a first one. -/
lemma exists_badCell (htokens : rowTokens? text row = some tokens) (hwidth : width ≤ tokens.length)
    (h : ∃ col < width, ∃ token, tokens[col]? = some token ∧ IsFaulty token) :
    ∃ e, RowFault text width row e := by
  classical
  obtain ⟨hcol, token, htoken, faulty⟩ := Nat.find_spec h
  refine ⟨_, .badCell htokens hwidth hcol htoken faulty fun before hbefore other hother hfaulty =>
    ?_⟩
  exact Nat.find_min h hbefore ⟨by omega, other, hother, hfaulty⟩

/-- A row without fault takes the reader to the next row. -/
lemma ReadUpTo.readRow (h : ReadUpTo text height width row 0 t) (hrow : row < height)
    (sound : ∀ e, ¬ RowFault text width row e) :
    ∃ tokens t', rowTokens? text row = some tokens ∧ readRow row tokens t = .ok t' ∧
      ReadUpTo text height width (row + 1) 0 t' := by
  cases htokens : rowTokens? text row with
  | none => exact absurd (.missing htokens) (sound _)
  | some tokens =>
    have hwidth : width ≤ tokens.length := Nat.le_of_not_lt fun short =>
      sound _ (.short htokens short)
    have sounds : ∀ token ∈ tokens.take width, ¬ IsFaulty token := by
      intro token hmem faulty
      obtain ⟨col, hcol, rfl⟩ := List.mem_take_iff_getElem.1 hmem
      obtain ⟨e, fault⟩ := exists_badCell htokens hwidth
        ⟨col, by omega, _, List.getElem?_eq_getElem (by omega), faulty⟩
      exact sound e fault
    obtain ⟨t', hread, h'⟩ := h.readCells hrow htokens rfl sounds
    refine ⟨tokens, t', rfl, ?_, ?_⟩
    · rw [Reader.readRow, h.width_eq, if_neg (by omega)]
      exact hread
    · refine ReadUpTo.nextRow ?_
      simpa [hwidth] using h'

/-- A row with a fault is reported. -/
lemma ReadUpTo.readRow_of_fault {e} (h : ReadUpTo text height width row 0 t) (hrow : row < height)
    (htokens : rowTokens? text row = some tokens) (fault : RowFault text width row e) :
    Reader.readRow row tokens t = .error e := by
  cases fault with
  | missing none => cases htokens.symm.trans none
  | short htokens' short =>
    cases htokens.symm.trans htokens'
    rw [Reader.readRow, h.width_eq, if_pos short]
  | @badCell _ col token htokens' hwidth hcol htoken faulty before =>
    cases htokens.symm.trans htokens'
    have place : ∀ i, (tokens.take width)[i]? = if i < width then tokens[i]? else none :=
      fun _ => List.getElem?_take
    have first := h.readCells_of_faulty hrow htokens
        (i := col) rfl (by rw [List.drop_zero, place, if_pos hcol, htoken])
      faulty fun j hj other hother =>
        before j hj other (by rwa [List.drop_zero, place, if_pos (by omega)] at hother)
    rw [Reader.readRow, h.width_eq, if_neg (by omega)]
    rwa [Nat.zero_add] at first

/-- The warnings about several rows start with the one about the first row. -/
lemma rowWarnings_succ (count : Nat) :
    rowWarnings text width row (count + 1) = (rowWarning? text width row).toList ++
      rowWarnings text width (row + 1) count := by
  rw [rowWarnings, rowWarnings, List.range'_succ, List.filterMap_cons]
  cases rowWarning? text width row <;> rfl

/-- A row with too many tokens is warned of. -/
lemma extraTokens?_eq (h : ReadUpTo text height width row 0 t)
    (htokens : rowTokens? text row = some tokens) :
    extraTokens? row tokens t = rowWarning? text width row := by
  rw [extraTokens?, rowWarning?, htokens, h.width_eq]
  rfl

/-- The lines from a row on begin with the line of this row. -/
lemma exists_line (htokens : rowTokens? text row = some tokens) :
    ∃ line, (Text.words line).map String.ofList = tokens ∧
      (Text.lines text.toList).drop (row + 1) =
        line :: (Text.lines text.toList).drop (row + 2) := by
  obtain ⟨line, hline, rfl⟩ := Option.map_eq_some_iff.1 htokens
  obtain ⟨hlt, rfl⟩ := List.getElem?_eq_some_iff.1 hline
  exact ⟨_, rfl, List.drop_eq_getElem_cons hlt⟩

/-- A row without fault is followed by the rest of the rows. -/
lemma readRows_cons {count} (h : ReadUpTo text height width row 0 t)
    (htokens : rowTokens? text row = some tokens) (hread : readRow row tokens t = .ok t') :
    readRows (count + 1) row ((Text.lines text.toList).drop (row + 1)) t =
      let rest := readRows count (row + 1) ((Text.lines text.toList).drop (row + 2)) t'
      { rest with warnings := (rowWarning? text width row).toList ++ rest.warnings } := by
  obtain ⟨line, rfl, hlines⟩ := exists_line htokens
  rw [hlines, readRows]
  dsimp only
  rw [hread, extraTokens?_eq h htokens]

/-- A row with a fault ends the reading. -/
lemma readRows_cons_of_error {count e} (h : ReadUpTo text height width row 0 t)
    (htokens : rowTokens? text row = some tokens) (hread : readRow row tokens t = .error e) :
    readRows (count + 1) row ((Text.lines text.toList).drop (row + 1)) t =
      { warnings := (rowWarning? text width row).toList, result := .error e } := by
  obtain ⟨line, rfl, hlines⟩ := exists_line htokens
  rw [hlines, readRows]
  dsimp only
  rw [hread, extraTokens?_eq h htokens]

/-- Rows without fault make a table. -/
lemma ReadUpTo.readRows {count} (h : ReadUpTo text height width row 0 t)
    (hcount : row + count = height)
    (sound : ∀ r, row ≤ r → r < height → ∀ e, ¬ RowFault text width r e) :
    ∃ t', Reader.readRows count row ((Text.lines text.toList).drop (row + 1)) t =
        { warnings := rowWarnings text width row count, result := .ok t' } ∧
      ReadUpTo text height width height 0 t' := by
  induction count generalizing row t with
  | zero =>
    obtain rfl : row = height := hcount
    exact ⟨t, rfl, h⟩
  | succ count ih =>
    obtain ⟨tokens, t₁, htokens, hread, h₁⟩ :=
      h.readRow (by omega) (sound row (Nat.le_refl row) (by omega))
    obtain ⟨t', hrest, h'⟩ := ih h₁ (by omega) fun r hr => sound r (by omega)
    refine ⟨t', ?_, h'⟩
    rw [readRows_cons h htokens hread, hrest, rowWarnings_succ]

/-- The first row with a fault is reported. -/
lemma ReadUpTo.readRows_of_fault {count before e} (h : ReadUpTo text height width row 0 t)
    (hcount : row + before < height) (hbefore : before < count)
    (sound : ∀ r, row ≤ r → r < row + before → ∀ e, ¬ RowFault text width r e)
    (fault : RowFault text width (row + before) e) :
    Reader.readRows count row ((Text.lines text.toList).drop (row + 1)) t =
      { warnings := rowWarnings text width row (before + 1), result := .error e } := by
  induction before generalizing row count t with
  | zero =>
    obtain ⟨count, rfl⟩ := Nat.exists_eq_add_one_of_ne_zero (Nat.ne_of_gt hbefore)
    rw [rowWarnings_succ]
    cases htokens : rowTokens? text row with
    | none =>
      have hlines : (Text.lines text.toList).drop (row + 1) = [] := by
        rw [List.drop_eq_nil_iff, ← List.getElem?_eq_none_iff]
        exact Option.map_eq_none_iff.1 htokens
      rw [hlines]
      cases fault with
      | missing _ => simp [Reader.readRows, rowWarnings, rowWarning?, htokens]
      | short htokens' _ => cases htokens.symm.trans htokens'
      | badCell htokens' _ _ _ _ _ => cases htokens.symm.trans htokens'
    | some tokens =>
      rw [readRows_cons_of_error h htokens (h.readRow_of_fault hcount htokens fault)]
      simp [rowWarnings]
  | succ before ih =>
    obtain ⟨count, rfl⟩ :=
      Nat.exists_eq_add_one_of_ne_zero (Nat.ne_of_gt (Nat.zero_lt_of_lt hbefore))
    obtain ⟨tokens, t₁, htokens, hread, h₁⟩ :=
      h.readRow (by omega) (sound row (Nat.le_refl row) (by omega))
    have hbefore' : before < count := by omega
    have rest := ih h₁ (by omega) hbefore' (fun r hr hr' => sound r (by omega) (by omega))
      (by rwa [show row + 1 + before = row + (before + 1) by omega])
    rw [readRows_cons h htokens hread, rest, rowWarnings_succ (before + 1)]

/-- The header is read as the size that it announces, if that is within the limits. -/
lemma readHeader_of_announces (h : Announces text height width) :
    readHeader ((Text.lines text.toList).head?.getD []) =
      (Table.empty width height).mapError .size := by
  have hheight := readDimension_eq_ok_iff (d := .height).2 h.height
  have hwidth := readDimension_eq_ok_iff (d := .width).2 h.width
  rw [headerWords] at hheight hwidth
  simp only [readHeader, hheight, hwidth, bind, Except.bind]

/-- Where there is a table of the size, the rows are read. -/
lemma ofText_of_fits (h : Announces text height width)
    (fits : ∀ cause, ¬ SizeFault height width cause) :
    Table.ofText text = readRows height 0 ((Text.lines text.toList).drop (0 + 1))
      { width, height } := by
  rw [Table.ofText, readHeader_of_announces h, empty_of_fits fits, ← List.drop_one]
  rfl

/-- The reader keeps to the rules. -/
theorem Reads.ofText_eq {reading} (h : Reads text reading) : Table.ofText text = reading := by
  cases h with
  | height fault =>
    have hheight := readDimension_of_fault fault
    rw [headerWords] at hheight
    simp only [Table.ofText, readHeader, hheight, bind, Except.bind]
  | width hword size fault =>
    have hheight := readDimension_eq_ok_iff (d := .height).2 ⟨_, hword, size⟩
    have hwidth := readDimension_of_fault fault
    rw [headerWords] at hheight hwidth
    simp only [Table.ofText, readHeader, hheight, hwidth, bind, Except.bind]
  | size announces fault =>
    rw [Table.ofText, readHeader_of_announces announces, empty_of_fault fault]
    rfl
  | row announces fits hrow before fault =>
    rw [ofText_of_fits announces fits]
    refine readUpTo_empty.readRows_of_fault (by omega) hrow (fun r _ hr => before r (by omega)) ?_
    rwa [Nat.zero_add]
  | @table height width t announces fits sound hasCells =>
    obtain ⟨t', hread, h'⟩ := readUpTo_empty.readRows (Nat.zero_add _) fun r _ => sound r
    rw [ofText_of_fits announces fits, hread, h'.hasCells.unique hasCells]

/-- There is a rule for every text. -/
lemma exists_reads (text : String) : ∃ reading, Reads text reading := by
  rcases exists_size_or_fault .height (headerWords text)[0]? with ⟨word, height, hheight,
    size⟩ | ⟨e, fault⟩
  case inr => exact ⟨_, .height fault⟩
  rcases exists_size_or_fault .width (headerWords text)[1]? with ⟨word', width, hwidth, size'⟩ | ⟨e,
    fault⟩
  case inr => exact ⟨_, .width hheight size fault⟩
  have announces : Announces text height width := ⟨⟨word, hheight, size⟩, word', hwidth, size'⟩
  by_cases fits : ∀ cause, ¬ SizeFault height width cause
  case neg =>
    obtain ⟨cause, fault⟩ := not_forall_not.1 fits
    exact ⟨_, .size announces fault⟩
  by_cases sound : ∃ row, row < height ∧ ∃ e, RowFault text width row e
  · classical
    obtain ⟨hrow, e, fault⟩ := Nat.find_spec sound
    refine ⟨_, .row announces fits hrow (fun before hbefore e' fault' => ?_) fault⟩
    exact Nat.find_min sound hbefore ⟨by omega, e', fault'⟩
  · have sound : ∀ row < height, ∀ e, ¬ RowFault text width row e := fun row hrow e fault =>
      sound ⟨row, hrow, e, fault⟩
    obtain ⟨t, -, h⟩ := readUpTo_empty.readRows (Nat.zero_add height) fun r _ => sound r
    exact ⟨_, .table announces fits sound h.hasCells⟩

/-- A table that was read has the cells of the text. -/
lemma hasCells_of_ofText (h : (Table.ofText text).result = .ok t) :
    ∃ height width, HasCells text height width t := by
  obtain ⟨reading, reads⟩ := exists_reads text
  rw [reads.ofText_eq] at h
  cases reads with
  | height _ | width _ _ _ | size _ _ | row _ _ _ _ _ => cases h
  | table _ _ _ hasCells =>
    cases h
    exact ⟨_, _, hasCells⟩

/-- A text is read as the rules say, and in no other way. The message of a fault says which line it
is in and, if it is one of a cell, gives the address and the token. -/
theorem ofText_eq_iff_reads (text : String) :
    (∀ reading, Table.ofText text = reading ↔ Reads text reading) ∧
    (∀ d, (ReadError.missingDimension d).message =
      "Parse error at line 1: " ++ ("Expected table height and width, missing " ++ d.name)) ∧
    (∀ d word, (ReadError.invalidDimension d word).message =
      "Parse error at line 1: " ++ ("Invalid table " ++ d.name ++ ": " ++ word)) ∧
    ∀ row col token, (ReadError.badCell ⟨row, col⟩ token (.unknownFormat token)).message =
      "Parse error at line " ++ toString (row + 2) ++ ": " ++
        ("Unknown data format" ++ " in cell " ++ Address.name ⟨row, col⟩ ++ ": " ++ token) := by
  refine ⟨fun reading => ⟨?_, Reads.ofText_eq⟩, fun _ => rfl, fun _ _ => rfl, fun _ _ _ => rfl⟩
  rintro rfl
  obtain ⟨reading, reads⟩ := exists_reads text
  exact reads.ofText_eq ▸ reads

/-- The first row has a token too many, the second one a faulty token, and the third one is missing.
-/
example : Table.ofText "3 1\n1 2\n!2\n" =
    { warnings := [⟨0, 1, 1⟩], result := .error (.badCell ⟨1, 0⟩ "!2" (.unknownFormat "!2")) } := by
  rfl

end TableCalc.Reader
