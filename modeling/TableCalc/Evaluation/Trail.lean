import TableCalc.Address

/-!
# The trail of an evaluation

References are only found while expressions are being evaluated, so the cells under evaluation are
kept on a trail, outermost first. A reference to a cell on the trail closes a cycle.
-/

namespace TableCalc

/-- The cells under evaluation, outermost first. -/
structure Trail where
  path : List Address := []
deriving DecidableEq, Repr

namespace Trail

/-- No cell is under evaluation. -/
def empty : Trail := {}

/-- Whether a cell is under evaluation. -/
def contains (t : Trail) (cell : Address) : Bool := decide (cell ∈ t.path)

/-- Whether no cell is under evaluation. -/
def isEmpty (t : Trail) : Bool := t.path.isEmpty

/-- Puts a cell at the end, and says whether that changed anything: a cell on the trail cannot enter
again. -/
def enter (t : Trail) (cell : Address) : Bool × Trail :=
  if t.contains cell then (false, t) else (true, ⟨t.path ++ [cell]⟩)

/-- Takes a cell off the trail, wherever it stands. -/
def leave (t : Trail) (cell : Address) : Trail := ⟨t.path.filter (· ≠ cell)⟩

/-- The cells on a trail are those of its path. -/
@[simp] theorem contains_iff {t : Trail} {cell : Address} :
    t.contains cell = true ↔ cell ∈ t.path := by
  simp [contains]

/-- A cell may enter unless it is on the trail. -/
theorem enter_fst_iff {t : Trail} {cell : Address} : (t.enter cell).1 = true ↔ cell ∉ t.path := by
  unfold enter
  split <;> simp_all

/-- A cell that enters comes last on the path. -/
theorem path_enter {t : Trail} {cell : Address} (h : cell ∉ t.path) :
    (t.enter cell).2.path = t.path ++ [cell] := by
  simp [enter, h]

/-- A cell that enters and leaves again leaves no trace. -/
theorem leave_enter {t : Trail} {cell : Address} (h : cell ∉ t.path) :
    (t.enter cell).2.leave cell = t := by
  have kept : ∀ other ∈ t.path, other ≠ cell := fun other hmem e => h (e ▸ hmem)
  have same : t.path.filter (· ≠ cell) = t.path :=
    List.filter_eq_self.2 fun other hmem => decide_eq_true (kept other hmem)
  simp only [leave, path_enter h, List.filter_append, same]
  simp

end Trail

end TableCalc
