/-!
# Table errors

Why a table cannot be made or a cell cannot be placed in it. The limits stand here because the
messages quote them.
-/

namespace TableCalc

/-- The most rows a table can have. -/
def maxRows : Nat := 25

/-- The most columns a table can have. -/
def maxColumns : Nat := 8

/-- A failure to make a table or to place a cell. -/
inductive TableError where
  /-- The token is no cell. -/
  | unknownFormat (token : String)
  | tooManyRows
  | tooManyColumns
  | noColumns
  /-- The place lies outside the table. -/
  | outOfBounds (row col : Nat)
deriving DecidableEq, Repr

namespace TableError

/-- The text shown for a table error. -/
def message : TableError → String
  | unknownFormat _ => "Unknown data format"
  | tooManyRows => "Table can't contain more than " ++ toString maxRows ++ " rows"
  | tooManyColumns => "Table can't contain more than " ++ toString maxColumns ++ " columns"
  | noColumns => "Table must have at least one column"
  | outOfBounds _ _ => "Table bounds violation"

end TableError

end TableCalc
