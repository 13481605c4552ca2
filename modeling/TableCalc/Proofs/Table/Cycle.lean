import TableCalc.Proofs.Evaluation.Cycle
import TableCalc.Proofs.Table.Pass

/-!
# Circular references of a pass

What every result keeps true of the memo holds after a pass (`computed_induction`). So a circular
reference that a pass reports is one: the cell and the cell that it names lie on a common cycle of
the reference graph.

The other way round not every cycle is reported, since an expression fails because of one reference
only. A cycle of blame is reported by all of its cells (`reports_of_blames_self`): an error passed
on along the whole cycle would have to be there before itself.
-/

namespace TableCalc.Table
open Evaluation Expression Relation

variable {raw : Grid} {t : Table}

/-- A row with two cycles that meet in its second cell, and with a cycle of its fourth cell. The
last cell divides by zero. -/
def tangledRow : Table where
  width := 5
  height := 1
  raw := (∅ : Grid).insert ⟨0, 0⟩ (.expression "b1")
    |>.insert ⟨0, 1⟩ (.expression "A1+C1")
    |>.insert ⟨0, 2⟩ (.expression "B1")
    |>.insert ⟨0, 3⟩ (.expression "D1+E1")
    |>.insert ⟨0, 4⟩ (.expression "1/0")

/-- What a pass computes for the tangled row. -/
lemma computed_tangledRow :
    PassesOn tangledRow.compute.2.computed ⟨0, 0⟩ ⟨0, 1⟩ ∧
      ReportsCircular tangledRow.compute.2.computed ⟨0, 1⟩ ⟨0, 1⟩ ∧
      ReportsCircular tangledRow.compute.2.computed ⟨0, 2⟩ ⟨0, 1⟩ ∧
      PassesOn tangledRow.compute.2.computed ⟨0, 3⟩ ⟨0, 4⟩ := by
  unfold PassesOn ReportsCircular
  decide +kernel

/-- What each result keeps true of the memo, a pass keeps true. -/
theorem computed_induction {P : Grid → Prop} (init : P t.raw.plain)
    (insert : ∀ {start e₀ s z e outcome u}, Fresh t.raw start e₀ s (.cell z e) →
      Runs t.raw (s.enter z) (.fold (tokenize e).reverse) outcome u → P u.memo →
      P (u.memo.insert z (.ofOutcome outcome))) : P t.compute.2.computed := by
  rw [computed_compute]
  exact computeAll_induction (P := fun s => P s.memo) init fun ready hz unset run h =>
    (Fresh.initial ready hz unset).memo_induction run insert h

/-- An expression is not among the plain cells. -/
lemma getElem?_plain_of_holds {z e} (hz : Holds raw z e) : raw.plain[z]? = none := by
  obtain ⟨source, hsource, -⟩ := hz
  simp [Grid.getElem?_plain, hsource, Cell.isExpression, Cell.source?]

/-- After a pass, circular references are on cycles. -/
lemma reported_compute (t : Table) : Reported t.raw t.compute.2.computed := by
  refine computed_induction ?_ fun fresh run h => h.insert fresh run
  intro x e y hx reports
  cases (getElem?_plain_of_holds hx).symm.trans reports

/-- After a pass, the errors that are passed on do not go round in circles. -/
lemma ranked_compute (t : Table) : Ranked t.raw t.compute.2.computed := by
  refine computed_induction ⟨fun _ => 0, ?_⟩ fun fresh run h => h.insert fresh run
  intro x e w e' hx _ passesOn
  cases (getElem?_plain_of_holds hx).symm.trans passesOn

/-- After a pass, each cell of which a circular reference is reported reports it itself. -/
lemma originsReport_compute (t : Table) : OriginsReport t.raw t.compute.2.computed := by
  rw [computed_compute]
  refine computeAll_induction (P := fun s => OriginsReport t.raw s.memo) ?_ ?_
  · intro x e y hx reports
    cases (getElem?_plain_of_holds hx).symm.trans reports
  · intro s z e outcome u ready hz unset run h x e' y hx reports
    have fresh : Fresh t.raw z e s (.cell z e) := .initial ready hz unset
    rcases run.origin_reports fresh h x e' y hx reports with reports | rfl
    · exact reports
    · -- nothing but `z` is under evaluation, so the circular reference is one of `z`
      obtain ⟨origin, -⟩ := run.circular_origin fresh rfl
      rw [Task.path, ready.trail, Trail.empty, List.nil_append, List.mem_singleton] at origin
      exact origin ▸ run.getElem?_cell

/-- A cell that reports a circular reference is on a cycle with the cell of which it reports it. -/
lemma cycle_of_reports {x e y} (hx : Holds t.raw x e)
    (reports : ReportsCircular t.compute.2.computed x y) :
    TransGen (References t.raw) x y ∧ TransGen (References t.raw) y x := by
  obtain ⟨blames, back, -⟩ := reported_compute t x e y hx reports
  exact ⟨Blames.reaches blames, back⟩

/-- A circular reference comes from a cell that is to blame and reports it as well. -/
lemma exists_blames_of_reports {x e y} (hx : Holds t.raw x e)
    (reports : ReportsCircular t.compute.2.computed x y) :
    ∃ w, Blames t.raw x w ∧ ReportsCircular t.compute.2.computed w y := by
  obtain ⟨-, -, w, blame, link⟩ := reported_compute t x e y hx reports
  rcases link with rfl | next
  · exact ⟨w, blame, originsReport_compute t x e w hx reports⟩
  · exact ⟨w, blame, next⟩

/-- A cell that blames another one reports a circular reference or passes the error of the other one
on. -/
lemma passesOn_or_reports {x w} (blame : Blames t.raw x w) :
    PassesOn t.compute.2.computed x w ∨ ∃ y, ReportsCircular t.compute.2.computed x y := by
  obtain ⟨e, hx, -, justified⟩ := blame
  obtain ⟨outcome, justified', hcell⟩ := exists_computed hx
  by_cases circular : ∃ y, outcome = .error (.circularReference y)
  · obtain ⟨y, rfl⟩ := circular
    exact .inr ⟨y, hcell⟩
  · rw [justified'.unique_of_not_circular justified (fun y hy => circular ⟨y, hy⟩) nofun] at hcell
    exact .inl hcell

/-- On a cycle of blame, not all errors are passed on. -/
lemma exists_reports_of_blames_self {x} (cycle : TransGen (Blames t.raw) x x) :
    ∃ v y, ReflTransGen (Blames t.raw) x v ∧ ReportsCircular t.compute.2.computed v y := by
  by_contra! none
  obtain ⟨rank, ranked⟩ := ranked_compute t
  have step : ∀ {v w}, ReflTransGen (Blames t.raw) x v → Blames t.raw v w → rank w < rank v := by
    intro v w hv blame
    obtain ⟨_, next, -⟩ := TransGen.head'_iff.1 (Blames.back cycle (hv.tail blame))
    obtain ⟨e, he⟩ := blame.holds
    obtain ⟨e', he'⟩ := next.holds
    rcases passesOn_or_reports blame with passesOn | ⟨y, reports⟩
    · exact (ranked v e w e' he he' passesOn).2
    · exact absurd reports (none v y hv)
  -- the rank goes down along the cycle, which comes back to `x`
  have descends : ∀ {v}, TransGen (Blames t.raw) x v → rank v < rank x := by
    intro v hv
    induction hv with
    | single blame => exact step .refl blame
    | tail hv blame ih => exact (step hv.to_reflTransGen blame).trans ih
  exact lt_irrefl _ (descends cycle)

/-- What one cell reports, all cells report that blame leads to. -/
lemma reports_of_blames {v u y} (hv : ReportsCircular t.compute.2.computed v y)
    (h : ReflTransGen (Blames t.raw) v u) : ReportsCircular t.compute.2.computed u y := by
  induction h with
  | refl => exact hv
  | tail _ blame ih =>
    obtain ⟨e, he⟩ := blame.holds
    obtain ⟨w, blame', reports⟩ := exists_blames_of_reports he ih
    exact blame.unique blame' ▸ reports

/-- The cells on a cycle of blame report a circular reference of a cell on it. -/
theorem reports_of_blames_self {x} (cycle : TransGen (Blames t.raw) x x) :
    ∃ y, ReportsCircular t.compute.2.computed x y ∧ TransGen (Blames t.raw) x y ∧
      TransGen (Blames t.raw) y x := by
  obtain ⟨v, y, hv, reports⟩ := exists_reports_of_blames_self cycle
  have back : TransGen (Blames t.raw) v x := Blames.back cycle hv
  have all : ReportsCircular t.compute.2.computed x y :=
    reports_of_blames reports back.to_reflTransGen
  obtain ⟨_, blame, -⟩ := TransGen.head'_iff.1 cycle
  obtain ⟨e, he⟩ := blame.holds
  obtain ⟨forth, -⟩ := reported_compute t x e y he all
  exact ⟨y, all, forth, Blames.back cycle forth.to_reflTransGen⟩

/-- If a pass reports a circular reference of `y` at `x`, then `y` is an expression cell, and `x`
and `y` lie on a common cycle of the reference graph. So a cell on no cycle reports none. -/
theorem circular_on_cycle (t : Table) (x : Address) (source : String)
    (hx : t.raw[x]? = some (.expression source)) :
    (∀ y : Address,
      t.compute.2.computed[x]? = some (.error (EvalError.circularReference y).message) →
      (∃ source', t.raw[y]? = some (.expression source')) ∧
        TransGen (References t.raw) x y ∧ TransGen (References t.raw) y x) ∧
    (¬ TransGen (References t.raw) x x →
      ∀ y : Address, t.compute.2.computed[x]? ≠
        some (.error (EvalError.circularReference y).message)) := by
  refine ⟨fun y reports => ?_, fun loose y reports => ?_⟩
  · obtain ⟨forth, back⟩ := cycle_of_reports (.of_eq hx) reports
    obtain ⟨_, ⟨_, ⟨source', hy, -⟩, -⟩, -⟩ := TransGen.head'_iff.1 back
    exact ⟨⟨source', hy⟩, forth, back⟩
  · obtain ⟨forth, back⟩ := cycle_of_reports (.of_eq hx) reports
    exact loose (forth.trans back)

/-- In the tangled row, the circular reference is reported of the second cell and by the third one.
-/
theorem circular_on_cycle_tangledRow :
    tangledRow.raw[(⟨0, 2⟩ : Address)]? = some (.expression "B1") ∧
    tangledRow.compute.2.computed[(⟨0, 2⟩ : Address)]? =
      some (.error "Circular reference in cell B1") ∧
    TransGen (References tangledRow.raw) ⟨0, 2⟩ ⟨0, 1⟩ ∧ TransGen (References tangledRow.raw) ⟨0, 1⟩
      ⟨0, 2⟩ := by
  have hx : tangledRow.raw[(⟨0, 2⟩ : Address)]? = some (.expression "B1") := rfl
  obtain ⟨-, -, reports, -⟩ := computed_tangledRow
  obtain ⟨-, cycle⟩ := (circular_on_cycle tangledRow _ _ hx).1 ⟨0, 1⟩ reports
  have text : (EvalError.circularReference ⟨0, 1⟩).message = "Circular reference in cell B1" := by
    decide +kernel
  exact ⟨hx, text ▸ reports, cycle⟩

end TableCalc.Table
