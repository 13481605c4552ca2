import TableCalc.Table

/-!
# Layouts

A computed table is written row by row: every shown cell is followed by the delimiter, the last one
of a row too, and every row by the line ending. The usual layout has tabs, carriage return and line
feed, and one line ending in front of the first row.
-/

namespace TableCalc

/-- How a line ends. -/
inductive LineEnding where
  | crlf
  | lf
deriving DecidableEq, Repr

/-- The characters that end a line. -/
def LineEnding.text : LineEnding → String
  | crlf => "\r\n"
  | lf => "\n"

/-- How a computed table is written. -/
structure Layout where
  /-- Written after every cell. -/
  delimiter : String := "\t"
  /-- Written after every row. -/
  lineEnding : LineEnding := .crlf
  /-- Whether a line ending comes before the first row. -/
  leadingBlankLine : Bool := true
deriving DecidableEq, Repr

namespace Layout

/-- One row, with its line ending. -/
def renderRow (l : Layout) (cells : List String) : String :=
  String.join (cells.map fun cell => cell ++ l.delimiter) ++ l.lineEnding.text

/-- Rows of shown cells, as text. -/
def renderRows (l : Layout) (rows : List (List String)) : String :=
  (if l.leadingBlankLine then l.lineEnding.text else "") ++ String.join (rows.map l.renderRow)

/-- The computed table as text. -/
def render (l : Layout) (t : Table) : String := l.renderRows t.displayGrid

end Layout

end TableCalc
