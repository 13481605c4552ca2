import TableCalc.Proofs.Evaluation.Reach
import TableCalc.Proofs.Table.OnDemand

/-!
# What a computed cell depends on

A cell depends on the cells that references lead to from it, and on no others. Two tables that agree
on those compute the same number at the cell or both none, however they differ elsewhere
(`computed_congr`). If no cycle can be reached, they compute the same cell, down to the text of an
error. A failure on a cycle is no such thing: its text tells where the cycle was entered, and that
may be up to a cell that lies outside.
-/

namespace TableCalc.Table
open Evaluation Expression Relation

/-- If two tables agree on a cell and on all that references lead to from it, they compute the same
number there or both none, and the same cell if references lead to no cycle. -/
theorem computed_congr (t t' : Table) (x : Address) (source : String)
    (hx : t.raw[x]? = some (.expression source))
    (agree : ∀ y, ReflTransGen (References t.raw) x y → t'.raw[y]? = t.raw[y]?) :
    (∀ value, t'.compute.2.computed[x]? = some (.number value) ↔
      t.compute.2.computed[x]? = some (.number value)) ∧
    (Acyclic t.raw x → t'.compute.2.computed[x]? = t.compute.2.computed[x]?) := by
  have hz : Holds t.raw x (normalize source) := .of_eq hx
  have hz' : Holds t'.raw x (normalize source) := hz.congr (agree x .refl)
  obtain ⟨outcome, justified, hcell⟩ := exists_computed hz
  obtain ⟨outcome', justified', hcell'⟩ := exists_computed hz'
  -- both outcomes are justified by the second grid
  have moved : Justified t'.raw (.cell x (normalize source)) outcome :=
    justified.congr fun y hy => agree y (Task.Reaches.cell hz hy)
  rw [hcell, hcell']
  refine ⟨fun value => ?_, fun acyclic => ?_⟩
  · simp only [Option.some.injEq, ofOutcome_eq_number_iff]
    exact justified'.ok_iff moved value
  · have acyclic' : Acyclic t'.raw x := acyclic.congr agree
    rw [justified'.unique moved (Task.Acyclic.cell acyclic' hz')]

/-- The third and the fourth cell of the knotted row, with a text in place of the cycle. -/
def looseRow : Table where
  width := 5
  height := 1
  raw := (∅ : Grid).insert ⟨0, 0⟩ (.text "no cycle")
    |>.insert ⟨0, 2⟩ (.expression "d1/0")
    |>.insert ⟨0, 3⟩ (.number 7)

/-- The third cell of the knotted row is evaluated for a cell on the cycle, and holds what it holds
without the cycle. -/
theorem computed_congr_knottedRow :
    knottedRow.raw[(⟨0, 2⟩ : Address)]? = some (.expression "d1/0") ∧
      Acyclic knottedRow.raw ⟨0, 2⟩ ∧
    (∀ y, ReflTransGen (References knottedRow.raw) ⟨0, 2⟩ y →
      looseRow.raw[y]? = knottedRow.raw[y]?) ∧
    looseRow.compute.2.computed[(⟨0, 2⟩ : Address)]? =
      knottedRow.compute.2.computed[(⟨0, 2⟩ : Address)]? := by
  have hx : knottedRow.raw[(⟨0, 2⟩ : Address)]? = some (.expression "d1/0") := rfl
  have agree : ∀ y, ReflTransGen (References knottedRow.raw) ⟨0, 2⟩ y →
      looseRow.raw[y]? = knottedRow.raw[y]? := by
    intro y path
    rcases path.cases_head with rfl | ⟨z, edge, rest⟩
    · rfl
    · cases references_knottedRow edge
      rcases rest.cases_head with rfl | ⟨w, edge', -⟩
      · rfl
      · exact absurd edge' not_references_knottedRow
  exact ⟨hx, acyclic_knottedRow, agree,
    (computed_congr knottedRow looseRow _ _ hx agree).2 acyclic_knottedRow⟩

/-- Two cells that refer to each other depend on nothing else, but their failures tell which of them
was evaluated first. -/
example :
    let cycle := (∅ : Grid).insert ⟨0, 1⟩ (.expression "c1") |>.insert ⟨0, 2⟩ (.expression "b1")
    let entered := cycle.insert ⟨0, 0⟩ (.expression "c1")
    (computeAll cycle).memo[(⟨0, 1⟩ : Address)]? = some (.error "Circular reference in cell B1") ∧
      (computeAll entered).memo[(⟨0, 1⟩ : Address)]? =
        some (.error "Circular reference in cell C1") := by
  decide +kernel

end TableCalc.Table
