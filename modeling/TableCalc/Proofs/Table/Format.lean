import Mathlib.Tactic.Lemma
import TableCalc.Proofs.Grid
import TableCalc.Table.Reader

/-!
# The format of tables

`Reads text reading` describes the format of tables without the reader. It has a rule for each place
where reading may stop: at the height, at the width, at the size, at a row, or after the last row. A
place is reached if there was no fault before it, so the fault that is reported is the first one in
reading order. The warnings are those about the rows that were reached.
-/

namespace TableCalc.Reader

/-- The words of the first line. A text without lines has none. -/
def headerWords (text : String) : List (List Char) :=
  Text.words ((Text.lines text.toList).head?.getD [])

/-- The tokens of a row, if there is a line for it. The first line is none. -/
def rowTokens? (text : String) (row : Nat) : Option (List String) :=
  (Text.lines text.toList)[row + 1]?.map fun line => (Text.words line).map String.ofList

/-- The word stands for a size: digits with at most one plus sign in front, for a number below `2 ^
64`. -/
def IsSize (word : List Char) (n : Nat) : Prop :=
  ∃ digits, (word = digits ∨ word = '+' :: digits) ∧
    Text.IsNumeral digits ∧ Nat.ofDigitChars 10 digits 0 = n ∧ n < 18446744073709551616

/-- The first line gives this height and this width. -/
structure Announces (text : String) (height width : Nat) : Prop where
  height : ∃ word, (headerWords text)[0]? = some word ∧ IsSize word height
  width : ∃ word, (headerWords text)[1]? = some word ∧ IsSize word width

/-- The word that should give a dimension is missing, or it is no size. -/
inductive DimensionFault (d : Dimension) : Option (List Char) → ReadError → Prop where
  | missing :
    DimensionFault d none (.missingDimension d)
  | invalid {word} :
    (∀ n, ¬ IsSize word n) →
    DimensionFault d (some word) (.invalidDimension d (String.ofList word))

/-- There is no table of this height and this width. -/
inductive SizeFault (height width : Nat) : TableError → Prop where
  | rows :
    25 < height →
    SizeFault height width .tooManyRows
  | columns :
    height ≤ 25 →
    8 < width →
    SizeFault height width .tooManyColumns
  | empty :
    height ≤ 25 →
    width = 0 →
    SizeFault height width .noColumns

/-- The token is neither `null` nor a cell. -/
def IsFaulty (token : String) : Prop := token ≠ "null" ∧ ∀ cell, Cell.parse token ≠ .ok cell

/-- The first fault of a row. -/
inductive RowFault (text : String) (width row : Nat) : ReadError → Prop where
  | missing :
    rowTokens? text row = none →
    RowFault text width row (.missingRow row)
  | short {tokens} :
    rowTokens? text row = some tokens →
    tokens.length < width →
    RowFault text width row (.missingColumns row tokens.length)
  | badCell {tokens col token} :
    rowTokens? text row = some tokens →
    width ≤ tokens.length →
    col < width →
    tokens[col]? = some token →
    IsFaulty token →
    (∀ before < col, ∀ other, tokens[before]? = some other → ¬ IsFaulty other) →
    RowFault text width row (.badCell ⟨row, col⟩ token (.unknownFormat token))

/-- The warning about a row that has more tokens than there are columns. -/
def rowWarning? (text : String) (width row : Nat) : Option ExtraTokens :=
  (rowTokens? text row).bind fun tokens =>
    if width < tokens.length then some { row, extra := tokens.length - width, width } else none

/-- The warnings about `count` rows, from `row` on. -/
def rowWarnings (text : String) (width row count : Nat) : List ExtraTokens :=
  (List.range' row count).filterMap (rowWarning? text width)

/-- The cell that stands at a place of the text. There is none where the token is `null`. -/
def cell? (text : String) (a : Address) : Option Cell := do
  let tokens ← rowTokens? text a.row
  let token ← tokens[a.col]?
  (Cell.parse token).toOption

/-- The table of this size with the cells of the text. -/
structure HasCells (text : String) (height width : Nat) (t : Table) : Prop where
  height_eq : t.height = height
  width_eq : t.width = width
  computed : t.computed = ∅
  raw : ∀ a : Address, t.raw[a]? = if a.row < height ∧ a.col < width then cell? text a else none

/-- There is one table at most with the cells of a text. -/
lemma HasCells.unique {text : String} {height width : Nat} {t t' : Table}
    (h : HasCells text height width t) (h' : HasCells text height width t') : t = t' := by
  obtain ⟨w, g, raw, computed⟩ := t
  obtain ⟨w', g', raw', computed'⟩ := t'
  obtain ⟨rfl, rfl, rfl, same⟩ := h
  obtain ⟨rfl, rfl, rfl, same'⟩ := h'
  obtain rfl : raw = raw' := Grid.ext_getElem? fun a => (same a).trans (same' a).symm
  rfl

/-- `Reads text reading`: the text is read as this table, or as this fault, with these warnings. -/
inductive Reads (text : String) : Reading Table → Prop where
  | height {e} :
    DimensionFault .height (headerWords text)[0]? e →
    Reads text { result := .error e }
  | width {word height e} :
    (headerWords text)[0]? = some word →
    IsSize word height →
    DimensionFault .width (headerWords text)[1]? e →
    Reads text { result := .error e }
  | size {height width cause} :
    Announces text height width →
    SizeFault height width cause →
    Reads text { result := .error (.size cause) }
  | row {height width row e} :
    Announces text height width →
    (∀ cause, ¬ SizeFault height width cause) →
    row < height →
    (∀ before < row, ∀ e, ¬ RowFault text width before e) →
    RowFault text width row e →
    Reads text { warnings := rowWarnings text width 0 (row + 1), result := .error e }
  | table {height width t} :
    Announces text height width →
    (∀ cause, ¬ SizeFault height width cause) →
    (∀ row < height, ∀ e, ¬ RowFault text width row e) →
    HasCells text height width t →
    Reads text { warnings := rowWarnings text width 0 height, result := .ok t }

end TableCalc.Reader
