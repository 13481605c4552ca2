import TableCalc.Table
import TableCalc.Text.Blank

/-!
# Reading tables

The first line of a table gives its height and its width; each line after it is a row of cell
tokens, separated by white space. The first fault in reading order is reported. Words past the last
column are ignored with a warning, and so is, without one, everything after the last row.
-/

namespace TableCalc

/-- A number that the first line has to give. -/
inductive Dimension where
  | height
  | width
deriving DecidableEq, Repr

/-- The name of a dimension in messages. -/
def Dimension.name : Dimension → String
  | height => "height"
  | width => "width"

/-- Why a text is no table. Rows and columns are counted from zero. -/
inductive ReadError where
  | missingDimension (d : Dimension)
  | invalidDimension (d : Dimension) (word : String)
  /-- No table has the size that the first line gives. -/
  | size (cause : TableError)
  | missingRow (row : Nat)
  /-- The row has only `found` tokens. -/
  | missingColumns (row found : Nat)
  | badCell (cell : Address) (token : String) (cause : TableError)
deriving DecidableEq, Repr

namespace ReadError

/-- A message with the line it is about, counted from one. -/
def atLine (line : Nat) (text : String) : String :=
  "Parse error at line " ++ toString line ++ ": " ++ text

/-- The text shown for a read error. -/
def message : ReadError → String
  | missingDimension d => atLine 1 ("Expected table height and width, missing " ++ d.name)
  | invalidDimension d word => atLine 1 ("Invalid table " ++ d.name ++ ": " ++ word)
  | size cause => cause.message
  | missingRow row => "Not enough rows in table: " ++ toString row
  | missingColumns row found =>
    "Not enough columns in table: " ++ toString row ++ "," ++ toString found
  | badCell cell token cause =>
    atLine (cell.row + 2) (cause.message ++ " in cell " ++ cell.name ++ ": " ++ token)

end ReadError

/-- A row has more tokens than the table has columns. -/
structure ExtraTokens where
  row : Nat
  extra : Nat
  width : Nat
deriving DecidableEq, Repr

/-- The text of the warning. -/
def ExtraTokens.message (w : ExtraTokens) : String :=
  "row " ++ toString (w.row + 1) ++ ": ignoring " ++ toString w.extra ++ " tokens past column " ++
    toString w.width

/-- The outcome of reading, with the warnings that came up on the way. -/
structure Reading (α : Type) where
  warnings : List ExtraTokens := []
  result : Except ReadError α

namespace Reader

/-- Reads a dimension: a size, with at most one plus sign in front. -/
def dimensionValue? : List Char → Option Nat
  | '+' :: digits => Text.size? digits
  | digits => Text.size? digits

/-- Reads the dimension `d` from the word that should give it. -/
def readDimension (d : Dimension) : Option (List Char) → Except ReadError Nat
  | none => .error (.missingDimension d)
  | some word =>
    match dimensionValue? word with
    | some n => .ok n
    | none => .error (.invalidDimension d (String.ofList word))

/-- Reads the first line. -/
def readHeader (line : List Char) : Except ReadError Table := do
  let words := Text.words line
  let height ← readDimension .height words[0]?
  let width ← readDimension .width words[1]?
  (Table.empty width height).mapError .size

/-- Puts the tokens of a row into the table, from column `col` on. -/
def readCells (row : Nat) : (col : Nat) → (tokens : List String) → Table → Except ReadError Table
  | _, [], t => .ok t
  | col, token :: tokens, t =>
    match (Table.setCell row col (some token)).run.run t with
    | (.error e, _) => .error (.badCell ⟨row, col⟩ token e)
    | (.ok (), t) => readCells row (col + 1) tokens t

/-- Reads a row from its tokens. -/
def readRow (row : Nat) (tokens : List String) (t : Table) : Except ReadError Table :=
  if tokens.length < t.width then .error (.missingColumns row tokens.length)
  else readCells row 0 (tokens.take t.width) t

/-- The warning about a row, if it has too many tokens. -/
def extraTokens? (row : Nat) (tokens : List String) (t : Table) : Option ExtraTokens :=
  if t.width < tokens.length then some ⟨row, tokens.length - t.width, t.width⟩ else none

/-- Reads `count` rows from number `row` on. -/
def readRows : (count row : Nat) → (lines : List (List Char)) → Table → Reading Table
  | 0, _, _, t => { result := .ok t }
  | _ + 1, row, [], _ => { result := .error (.missingRow row) }
  | count + 1, row, line :: lines, t =>
    let tokens := (Text.words line).map String.ofList
    let warnings := (extraTokens? row tokens t).toList
    match readRow row tokens t with
    | .error e => { warnings, result := .error e }
    | .ok t =>
      let rest := readRows count (row + 1) lines t
      { rest with warnings := warnings ++ rest.warnings }

end Reader

/-- Reads a table from text. -/
def Table.ofText (text : String) : Reading Table :=
  let lines := Text.lines text.toList
  match Reader.readHeader (lines.head?.getD []) with
  | .error e => { result := .error e }
  | .ok t => Reader.readRows t.height 0 lines.tail t

end TableCalc
