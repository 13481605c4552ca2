import TableCalc.Address

/-!
# Evaluation errors

Why an expression has no value. None of them stops the computation of a table: the message becomes
the content of an error cell. `EvalError.seenFrom` says what the failure of one cell is to the cell
that refers to it.
-/

namespace TableCalc

/-- A failure to evaluate an expression. -/
inductive EvalError where
  /-- An operand is missing at the start of the expression. -/
  | unfinishedExpression
  /-- An operator stands where an operand is due. -/
  | notEnoughOperands
  | unknownToken (lexeme : String)
  | numberOutOfRange (lexeme : String)
  /-- A reference names no cell. -/
  | undefinedCell (name : String)
  | textInExpression (cell : Address)
  /-- The cell that a reference names holds an error. -/
  | propagated (cell : Address)
  /-- A reference leads back to a cell that is being evaluated. -/
  | circularReference (cell : Address)
  | divisionByZero
  | overflow
deriving DecidableEq, Repr

namespace EvalError

/-- The text shown for a failure. -/
def message : EvalError → String
  | unfinishedExpression => "Unfinished expression"
  | notEnoughOperands => "Not enough operands"
  | unknownToken lexeme => "Unknown token in expression: " ++ lexeme
  | numberOutOfRange lexeme => "Number is out of range: " ++ lexeme
  | undefinedCell name => "Cell " ++ name ++ " is not defined"
  | textInExpression cell => "Can't use text in expression! Cell " ++ cell.name
  | propagated cell => "Expression error in cell " ++ cell.name
  | circularReference cell => "Circular reference in cell " ++ cell.name
  | divisionByZero => "Division by zero"
  | overflow => "Arithmetic overflow"

/-- What a failure of `cell` is to an expression that refers to `cell`. A cycle that closes
elsewhere is still open there, so every cell on it reports that cycle; any other failure is passed
on by the address of the cell alone. -/
def seenFrom (cell : Address) : EvalError → EvalError
  | circularReference origin => if origin = cell then propagated cell else circularReference origin
  | _ => propagated cell

/-- The cell that a failure tells of, if it was met at a reference. -/
def blamed? : EvalError → Option Address
  | textInExpression cell | propagated cell | circularReference cell => some cell
  | _ => none

end EvalError

end TableCalc
