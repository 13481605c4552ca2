import TableCalc.Table.Error
import TableCalc.Text.Digits

/-!
# Cells

What a cell of a table holds. A token becomes a cell by its first character: a quote for text, an
equals sign for an expression, a hash sign for an error; any other token has to be a numeral that a
signed 64-bit integer can hold. Computed cells are numbers of either sign, texts and errors.
-/

namespace TableCalc

/-- The content of a cell. -/
inductive Cell where
  | text (content : String)
  | number (value : Int64)
  /-- An expression, as it was written. -/
  | expression (source : String)
  /-- A failure, by its message. -/
  | error (message : String)
deriving DecidableEq, Repr

namespace Cell

/-- The cell that a token stands for. -/
def parse (token : String) : Except TableError Cell :=
  match token.toList with
  | '\'' :: content => .ok (.text (String.ofList content))
  | '=' :: source => .ok (.expression (String.ofList source))
  | '#' :: message => .ok (.error (String.ofList message))
  | digits =>
    match Text.int64? digits with
    | some value => .ok (.number value)
    | none => .error (.unknownFormat token)

/-- The text shown for a cell. An error is marked by a hash sign; an expression shows its source. -/
def render : Cell → String
  | text content => content
  | number value => toString value.toInt
  | expression source => source
  | error message => "#" ++ message

/-- The token that stands for a cell: its text with the mark of its kind in front. -/
def token (cell : Cell) : String :=
  match cell with
  | text content => "'" ++ content
  | expression source => "=" ++ source
  | number _ | error _ => cell.render

/-- The source of an expression cell. -/
def source? : Cell → Option String
  | expression source => some source
  | _ => none

/-- Whether the cell is an expression. -/
def isExpression (cell : Cell) : Bool := cell.source?.isSome

end Cell

end TableCalc
