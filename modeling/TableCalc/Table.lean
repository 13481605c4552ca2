import TableCalc.Evaluation.Evaluator

/-!
# Tables

A table has a size, the cells it was given and the cells computed from them. The raw cells are what
counts; the computed ones start empty and are filled by `Table.compute`, and by single evaluations
in between.
-/

namespace TableCalc

/-- The text shown for a cell that is not there. As a token it stands for no cell. -/
def emptyCell : String := "null"

/-- A table with its raw and its computed cells. -/
structure Table where
  width : Nat
  height : Nat
  raw : Grid := ∅
  computed : Grid := ∅

/-- The counts of one pass over a table. -/
structure Tally where
  /-- Plain cells copied. -/
  copied : Nat := 0
  /-- Expression cells found. -/
  expressions : Nat := 0
  /-- Expressions evaluated, in their turn or for another cell. -/
  evaluations : Nat := 0
  /-- Evaluations that failed. -/
  errors : Nat := 0
deriving DecidableEq, Repr

namespace Table

/-- A table without cells. -/
def empty (width height : Nat) : Except TableError Table :=
  if maxRows < height then .error .tooManyRows
  else if maxColumns < width then .error .tooManyColumns
  else if width = 0 then .error .noColumns
  else .ok { width, height }

/-- The address of a place inside the table. -/
def address (t : Table) (row col : Nat) : Except TableError Address :=
  if row < t.height ∧ col < t.width then .ok ⟨row, col⟩ else .error (.outOfBounds row col)

/-- Puts the cell that a token stands for at a place of the table. No token, the empty one and
`null` leave the place as it is. -/
def setCell (row col : Nat) (token : Option String) : ExceptT TableError (StateM Table) Unit := do
  let place ← ofExcept ((← get).address row col)
  let some s := token.filter fun s => s ≠ "" ∧ s ≠ emptyCell | return
  let cell ← ofExcept (Cell.parse s)
  modify fun t => { t with raw := t.raw.insert place cell }

/-- A place outside or a token that stands for no cell is reported and leaves the table as it is. -/
theorem run_setCell (t : Table) (row col : Nat) (token : Option String) :
    (setCell row col token).run.run t = match t.address row col with
      | .error e => (.error e, t)
      | .ok place =>
        match token.filter fun s => s ≠ "" ∧ s ≠ emptyCell with
        | none => (.ok (), t)
        | some s => match Cell.parse s with
          | .error e => (.error e, t)
          | .ok cell => (.ok (), { t with raw := t.raw.insert place cell }) := by
  unfold setCell
  show ((ofExcept (t.address row col) >>= _ : ExceptT TableError (StateM Table) _).run).run t = _
  cases t.address row col with
  | error e => rfl
  | ok place =>
    cases token.filter fun s => s ≠ "" ∧ s ≠ emptyCell with
    | none => rfl
    | some s =>
      dsimp only
      cases Cell.parse s <;> rfl

/-- Copies the next cell of a pass, unless it is an expression, and counts it. -/
def copyNext (s : Grid × Nat) (entry : Entry) : Grid × Nat :=
  if entry.cell.isExpression then s else (s.1.insert entry.address entry.cell, s.2 + 1)

/-- The next expression of a pass: evaluated unless it is computed already. -/
def computeNext (raw : Grid) (s : Evaluation) (item : Address × String) : Evaluation :=
  if item.1 ∈ s.memo then s
  else ((Evaluation.evaluateAndStore raw item.1 (Expression.normalize item.2)).run.run s).2

/-- The next cell of a pass: counted and computed if it is an expression. -/
def visitNext (raw : Grid) (s : Evaluation × Nat) (entry : Entry) : Evaluation × Nat :=
  match entry.cell.source? with
  | none => s
  | some source => (computeNext raw s.1 (entry.address, source), s.2 + 1)

/-- Computes every cell anew. Failures become error cells. -/
def compute (t : Table) : Tally × Table :=
  let t := { t with computed := ∅ }
  let (computed, copied) := t.raw.toList.foldl copyNext (t.computed, 0)
  let (final, expressions) := t.raw.toList.foldl (visitNext t.raw) ({ memo := computed }, 0)
  ({ copied, expressions, evaluations := final.evaluations, errors := final.failures },
    { t with computed := final.memo })

/-- Evaluates one expression as the value of `cell`, which may lie anywhere, and stores the outcome
among the computed cells. The expression is taken as it is. -/
def evaluateAndStore (t : Table) (cell : Address) (expression : String) :
    Except EvalError Int64 × Table :=
  let (outcome, final) :=
    (Evaluation.evaluateAndStore t.raw cell expression).run.run { memo := t.computed }
  (outcome, { t with computed := final.memo })

/-- The text shown at a place: the computed cell, or `null`. -/
def display (t : Table) (row col : Nat) : String :=
  (t.computed[Address.mk row col]?.map Cell.render).getD emptyCell

/-- The texts shown in the table, row by row. -/
def displayGrid (t : Table) : List (List String) :=
  (List.range t.height).map fun row => (List.range t.width).map fun col => t.display row col

end Table

end TableCalc
