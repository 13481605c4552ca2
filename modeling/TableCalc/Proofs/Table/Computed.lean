import TableCalc.Proofs.Evaluation.Naive
import TableCalc.Proofs.Evaluation.Valued
import TableCalc.Proofs.Table.Pass

/-!
# What a pass computes

The meaning of the cells that a pass computes, in terms of the raw grid alone. An expression cell
becomes the number that is derived for it, and an error if none is. If no cycle can be reached from
the cell, it becomes what the naive evaluator makes of it, down to the text of the error.
-/

namespace TableCalc.Table
open Evaluation Expression

/-- A row with a cycle of its first two cells. The second one also refers to the third, which
divides by zero. -/
def knottedRow : Table where
  width := 5
  height := 1
  raw := (∅ : Grid).insert ⟨0, 0⟩ (.expression "b1+d1")
    |>.insert ⟨0, 1⟩ (.expression "a1+c1")
    |>.insert ⟨0, 2⟩ (.expression "d1/0")
    |>.insert ⟨0, 3⟩ (.number 7)
    |>.insert ⟨0, 4⟩ (.expression "2+3*d1")

/-- A pass stores the derived number at an expression cell, and an error exactly where nothing is
derived. -/
theorem computed_iff_valued (t : Table) (x : Address) (source : String)
    (hx : t.raw[x]? = some (.expression source)) :
    (∀ n : Int,
      (∃ value : Int64, t.compute.2.computed[x]? = some (.number value) ∧ value.toInt = n) ↔
      Valued t.raw x n) ∧
    ((∃ message, t.compute.2.computed[x]? = some (.error message)) ↔ ¬ ∃ n, Valued t.raw x n) := by
  obtain ⟨outcome, justified, hcell⟩ := exists_computed (.of_eq hx)
  have number : ∀ n, Yields outcome n ↔ Valued t.raw x n := fun n =>
    (justified.yields_iff n).trans (valued_iff (.of_eq hx)).symm
  simp only [hcell, Option.some.injEq]
  refine ⟨?_, ?_⟩
  · simp only [ofOutcome_eq_number_iff]
    exact number
  · rw [ofOutcome_eq_error_iff, exists_congr number]

/-- The last cell of the row is folded from left to right, and no number is derived on the cycle. -/
theorem computed_iff_valued_knottedRow :
    knottedRow.raw[(⟨0, 4⟩ : Address)]? = some (.expression "2+3*d1") ∧
    knottedRow.raw[(⟨0, 0⟩ : Address)]? = some (.expression "b1+d1") ∧
    Valued knottedRow.raw ⟨0, 4⟩ 35 ∧ ¬ ∃ n, Valued knottedRow.raw ⟨0, 0⟩ n := by
  have hlast : knottedRow.raw[(⟨0, 4⟩ : Address)]? = some (.expression "2+3*d1") := rfl
  have hfirst : knottedRow.raw[(⟨0, 0⟩ : Address)]? = some (.expression "b1+d1") := rfl
  have number : knottedRow.compute.2.computed[(⟨0, 4⟩ : Address)]? = some (.number 35) := by
    decide +kernel
  have error : knottedRow.compute.2.computed[(⟨0, 0⟩ : Address)]? =
      some (.error "Expression error in cell B1") := by
    decide +kernel
  exact ⟨hlast, hfirst, ((computed_iff_valued knottedRow _ _ hlast).1 35).1 ⟨35, number, rfl⟩,
    (computed_iff_valued knottedRow _ _ hfirst).2.1 ⟨_, error⟩⟩

/-- From a cell that reaches no cycle, a pass computes what the naive evaluator does. -/
theorem computed_eq_naive (t : Table) (x : Address) (source : String)
    (hx : t.raw[x]? = some (.expression source)) (acyclic : Acyclic t.raw x) :
    ∃ outcome, Naive.Ends t.raw (normalize source) outcome ∧
      t.compute.2.computed[x]? = some (.ofOutcome outcome) := by
  have hz : Holds t.raw x (normalize source) := .of_eq hx
  obtain ⟨outcome, justified, hcell⟩ := exists_computed hz
  exact ⟨outcome, justified.naive (Task.Acyclic.cell acyclic hz), hcell⟩

/-- The third cell of the row refers to the fourth one alone, which is a number. -/
lemma references_knottedRow {z : Address} (edge : References knottedRow.raw ⟨0, 2⟩ z) :
    z = ⟨0, 3⟩ := by
  have divided : Holds knottedRow.raw ⟨0, 2⟩ "D1/0" := ⟨"d1/0", rfl, by decide⟩
  have lexemes : tokenize "D1/0" = ["D1", "/", "0"] := by decide
  obtain ⟨e, hx, lexeme, hmem, hc⟩ := edge
  cases divided.unique hx
  simp only [lexemes, List.mem_cons, List.not_mem_nil, or_false] at hmem
  rcases hmem with rfl | rfl | rfl <;> cases hc
  rfl

/-- The fourth cell of the knotted row refers to nothing. -/
lemma not_references_knottedRow {z : Address} : ¬ References knottedRow.raw ⟨0, 3⟩ z := by
  rintro ⟨e, ⟨source, hsource, -⟩, -⟩
  cases hsource

/-- The third cell of the knotted row reaches no cycle. -/
lemma acyclic_knottedRow : Acyclic knottedRow.raw ⟨0, 2⟩ := by
  apply acyclic_of_forall
  intro z edge
  rw [references_knottedRow edge]
  apply acyclic_of_forall
  intro y edge'
  exact absurd edge' not_references_knottedRow

/-- The third cell of the row is evaluated for a cell on the cycle, and yet it holds what the naive
evaluator finds. -/
theorem computed_eq_naive_knottedRow :
    knottedRow.raw[(⟨0, 2⟩ : Address)]? = some (.expression "d1/0") ∧
      Acyclic knottedRow.raw ⟨0, 2⟩ ∧
    ∃ e, Naive.Ends knottedRow.raw (normalize "d1/0") (.error e) ∧
      e.message = "Division by zero" := by
  have hx : knottedRow.raw[(⟨0, 2⟩ : Address)]? = some (.expression "d1/0") := rfl
  have error : knottedRow.compute.2.computed[(⟨0, 2⟩ : Address)]? =
      some (.error "Division by zero") := by
    decide +kernel
  obtain ⟨outcome, naive, hcell⟩ := computed_eq_naive knottedRow ⟨0, 2⟩ "d1/0" hx acyclic_knottedRow
  refine ⟨hx, acyclic_knottedRow, ?_⟩
  cases outcome with
  | ok value => cases error.symm.trans hcell
  | error e =>
    rw [error, Cell.ofOutcome, Option.some.injEq, Cell.error.injEq] at hcell
    exact ⟨e, naive, hcell.symm⟩

end TableCalc.Table
