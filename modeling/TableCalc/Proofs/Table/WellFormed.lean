import TableCalc.Proofs.Evaluation.WellFormed
import TableCalc.Proofs.Table.Solution

/-!
# Cycles of a well-formed table

In a well-formed table a cell on a cycle always holds an error. It need not report the cycle: its
expression fails because of the rightmost reference that fails, and that one may lead off the cycle,
or onto another one that is reported already. So the edges that count are those from an expression
to its rightmost reference to a cell with an error (`RightmostError`), and these are the edges of
blame (`rightmostError_eq_blames`). A cycle of them is reported by all of its cells.
-/

namespace TableCalc.Table
open Evaluation Expression Relation

variable {t : Table}

/-- A cell refers to the cell of its rightmost error. -/
lemma RightmostError.references {x z} (h : RightmostError t x z) : References t.raw x z := by
  obtain ⟨e, hx, rightmost⟩ := h
  exact ⟨e, hx, rightmost.mentions⟩

/-- Of the cells that are referred to, those with an error are those without a value. -/
lemma holdsError_iff_valueless (wellFormed : t.raw.WellFormed) {x w} (edge : References t.raw x w) :
    t.compute.2.computed.holdsError w = true ↔ Valueless t.raw w := by
  refine ⟨valueless_of_holdsError, fun h => ?_⟩
  rcases wellFormed.usable x w edge with ⟨value, hw⟩ | ⟨source, hw⟩
  · exact absurd h (Justified.plain hw rfl).not_valueless
  · exact holdsError_of_valueless (.of_eq hw) h

/-- The rightmost error is the one of the cell to blame. -/
lemma rightmostError_eq_blames (wellFormed : t.raw.WellFormed) :
    RightmostError t.compute.2 = Blames t.raw := by
  funext x z
  refine propext ⟨?_, ?_⟩
  · intro h
    have edge : References t.raw x z := h.references
    obtain ⟨e, hx, rightmost⟩ := h
    refine wellFormed.blames hx (rightmost.imp ?_ fun lexeme hmem w hc => ?_)
    · exact (holdsError_iff_valueless wellFormed edge).1 rightmost.property
    · exact (holdsError_iff_valueless wellFormed ⟨e, hx, lexeme, hmem, hc⟩).2
  · intro blame
    obtain ⟨e, hx⟩ := blame.holds
    exact .of_blames blame
      ((holdsError_iff_valueless wellFormed blame.references).2 (blame.rightmost hx).property)

/-- On a cycle of a well-formed grid, an expression fails because of a reference. -/
lemma exists_blames_of_reaches_self (wellFormed : t.raw.WellFormed) {x}
    (cycle : TransGen (References t.raw) x x) :
    ∃ z, Blames t.raw x z := by
  obtain ⟨w, ⟨e, hx, lexeme, hmem, hc⟩, back⟩ := TransGen.head'_iff.1 cycle
  have around : TransGen (References t.raw) w w := .tail' back ⟨e, hx, lexeme, hmem, hc⟩
  obtain ⟨_, ⟨_, hw, -⟩, -⟩ := TransGen.head'_iff.1 around
  -- the next cell on the cycle has no value, so there is a rightmost reference to such a cell
  obtain ⟨z, rightmost⟩ :=
    RightmostReference.exists_of_mem hmem hc (Justified.circular hw around).valueless
  exact ⟨z, wellFormed.blames hx rightmost⟩

/-- The expressions of the tangled row. -/
lemma holds_tangledRow {x e} (h : Holds tangledRow.raw x e) :
    e = "B1" ∨ e = "A1+C1" ∨ e = "D1+E1" ∨ e = "1/0" := by
  obtain ⟨source, hsource, rfl⟩ := h
  have all : ∀ entry ∈ tangledRow.raw.expressions, Expression.normalize entry.2 = "B1" ∨
      Expression.normalize entry.2 = "A1+C1" ∨ Expression.normalize entry.2 = "D1+E1" ∨
      Expression.normalize entry.2 = "1/0" := by
    decide +kernel
  exact all (x, source) (Grid.mem_expressions.2 hsource)

/-- The tangled row is well formed. -/
lemma wellFormed_tangledRow : tangledRow.raw.WellFormed := by
  have single : tokenize "B1" = ["B1"] := by decide
  have sum : tokenize "A1+C1" = ["A1", "+", "C1"] := by decide
  have selfSum : tokenize "D1+E1" = ["D1", "+", "E1"] := by decide
  have quotient : tokenize "1/0" = ["1", "/", "0"] := by decide
  refine ⟨?_, ?_⟩
  · intro x e hx
    rcases holds_tangledRow hx with rfl | rfl | rfl | rfl
    · rw [single]
      exact .term (.inr ⟨_, rfl⟩)
    · rw [sum]
      exact @Alternating.step ["A1"] "+" "C1" .add (.term (.inr ⟨_, rfl⟩)) rfl (.inr ⟨_, rfl⟩)
    · rw [selfSum]
      exact @Alternating.step ["D1"] "+" "E1" .add (.term (.inr ⟨_, rfl⟩)) rfl (.inr ⟨_, rfl⟩)
    · rw [quotient]
      exact @Alternating.step ["1"] "/" "0" .div (.term (.inl ⟨_, rfl⟩)) rfl (.inl ⟨_, rfl⟩)
  · rintro x z ⟨e, hx, lexeme, hmem, hc⟩
    rcases holds_tangledRow hx with rfl | rfl | rfl | rfl
    all_goals simp only [single, sum, selfSum, quotient, List.mem_cons, List.not_mem_nil,
      or_false] at hmem
    · cases hmem
      cases hc
      exact .inr ⟨"A1+C1", rfl⟩
    · rcases hmem with rfl | rfl | rfl <;> cases hc
      · exact .inr ⟨"b1", rfl⟩
      · exact .inr ⟨"B1", rfl⟩
    · rcases hmem with rfl | rfl | rfl <;> cases hc
      · exact .inr ⟨"D1+E1", rfl⟩
      · exact .inr ⟨"1/0", rfl⟩
    · rcases hmem with rfl | rfl | rfl <;> cases hc

/-- The tangled row has two cycles, which meet in its second cell, and a loop at its fourth one. -/
lemma references_tangledRow :
    References tangledRow.raw ⟨0, 0⟩ ⟨0, 1⟩ ∧ References tangledRow.raw ⟨0, 1⟩ ⟨0, 0⟩ ∧
      References tangledRow.raw ⟨0, 1⟩ ⟨0, 2⟩ ∧ References tangledRow.raw ⟨0, 2⟩ ⟨0, 1⟩ ∧
      References tangledRow.raw ⟨0, 3⟩ ⟨0, 3⟩ := by
  have first : Holds tangledRow.raw ⟨0, 0⟩ "B1" := ⟨"b1", rfl, by decide⟩
  have second : Holds tangledRow.raw ⟨0, 1⟩ "A1+C1" := ⟨"A1+C1", rfl, by decide⟩
  have third : Holds tangledRow.raw ⟨0, 2⟩ "B1" := ⟨"B1", rfl, by decide⟩
  have fourth : Holds tangledRow.raw ⟨0, 3⟩ "D1+E1" := ⟨"D1+E1", rfl, by decide⟩
  exact ⟨⟨_, first, "B1", by decide, rfl⟩, ⟨_, second, "A1", by decide, rfl⟩,
    ⟨_, second, "C1", by decide, rfl⟩,
    ⟨_, third, "B1", by decide, rfl⟩, ⟨_, fourth, "D1", by decide, rfl⟩⟩

/-- In the tangled row, the first and the fourth cell are on cycles and report none. -/
theorem silent_on_cycle_tangledRow :
    tangledRow.raw.WellFormed ∧
    TransGen (References tangledRow.raw) ⟨0, 0⟩ ⟨0, 0⟩ ∧ TransGen (References tangledRow.raw) ⟨0, 3⟩
      ⟨0, 3⟩ ∧
    ∀ y : Address,
      tangledRow.compute.2.computed[(⟨0, 0⟩ : Address)]? ≠
        some (.error (EvalError.circularReference y).message) ∧
      tangledRow.compute.2.computed[(⟨0, 3⟩ : Address)]? ≠
        some (.error (EvalError.circularReference y).message) := by
  obtain ⟨first, -, -, fourth⟩ := computed_tangledRow
  obtain ⟨forth, back, -, -, self⟩ := references_tangledRow
  exact ⟨wellFormed_tangledRow, .head forth (.single back), .single self, fun y =>
    ⟨first.not_reportsCircular y, fourth.not_reportsCircular y⟩⟩

/-- In a well-formed table, a cell on a cycle of the reference graph holds an error after a pass: a
circular reference of a cell on a common cycle, or the error of its rightmost reference that fails.
It is a circular reference if the cell is on a cycle of such rightmost references, and then it is
one of a cell on a common cycle of that kind. -/
theorem computed_on_cycle (t : Table) (wellFormed : t.raw.WellFormed) (x : Address)
    (cycle : TransGen (References t.raw) x x) :
    ((∃ y : Address,
      t.compute.2.computed[x]? = some (.error (EvalError.circularReference y).message) ∧
        TransGen (References t.raw) x y ∧ TransGen (References t.raw) y x) ∨
      ∃ z : Address, t.compute.2.computed[x]? = some (.error (EvalError.propagated z).message) ∧
        RightmostError t.compute.2 x z) ∧
    (TransGen (RightmostError t.compute.2) x x →
      ∃ y : Address, t.compute.2.computed[x]? =
        some (.error (EvalError.circularReference y).message) ∧
        TransGen (RightmostError t.compute.2) x y ∧ TransGen (RightmostError t.compute.2) y x) := by
  rw [rightmostError_eq_blames wellFormed]
  refine ⟨?_, reports_of_blames_self⟩
  obtain ⟨z, blame⟩ := exists_blames_of_reaches_self wellFormed cycle
  rcases passesOn_or_reports blame with passesOn | ⟨y, reports⟩
  · exact .inr ⟨z, passesOn, blame⟩
  · obtain ⟨e, hx⟩ := blame.holds
    exact .inl ⟨y, reports, cycle_of_reports hx reports⟩

/-- The second and the third cell of the tangled row are on a cycle of rightmost references, which
they report. -/
theorem computed_on_cycle_tangledRow :
    tangledRow.raw.WellFormed ∧ TransGen (References tangledRow.raw) ⟨0, 1⟩ ⟨0, 1⟩ ∧
    TransGen (RightmostError tangledRow.compute.2) ⟨0, 1⟩ ⟨0, 1⟩ ∧
    ∃ y : Address,
      tangledRow.compute.2.computed[(⟨0, 1⟩ : Address)]? =
        some (.error (EvalError.circularReference y).message) ∧
      TransGen (RightmostError tangledRow.compute.2) ⟨0, 1⟩ y ∧
      TransGen (RightmostError tangledRow.compute.2) y ⟨0, 1⟩ := by
  obtain ⟨-, -, forth, back, -⟩ := references_tangledRow
  have cycle : TransGen (References tangledRow.raw) ⟨0, 1⟩ ⟨0, 1⟩ := .head forth (.single back)
  have second : RightmostError tangledRow.compute.2 ⟨0, 1⟩ ⟨0, 2⟩ :=
    ⟨"A1+C1", ⟨"A1+C1", rfl, by decide⟩, ["A1", "+"], "C1", [], by decide,
      rfl, by decide +kernel, by simp⟩
  have third : RightmostError tangledRow.compute.2 ⟨0, 2⟩ ⟨0, 1⟩ :=
    ⟨"B1", ⟨"B1", rfl, by decide⟩, [], "B1", [], by decide, rfl, by decide +kernel, by simp⟩
  have rightmost : TransGen (RightmostError tangledRow.compute.2) ⟨0, 1⟩ ⟨0, 1⟩ :=
    .head second (.single third)
  exact ⟨wellFormed_tangledRow, cycle, rightmost,
    (computed_on_cycle tangledRow wellFormed_tangledRow _ cycle).2 rightmost⟩

end TableCalc.Table
