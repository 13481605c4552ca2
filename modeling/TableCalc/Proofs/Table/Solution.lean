import TableCalc.Proofs.Table.Cycle
import TableCalc.Proofs.Table.Tally

/-!
# The computed cells as a solution

What a pass computes solves the equations that the expressions state. Evaluated again on the
computed cells, an expression has the outcome that is stored, since every reference is looked up and
both outcomes are justified. Only a circular reference is not met again. Its cell fails all the
same, since it blames a cell that holds an error by now (`exists_blames_of_reports`), and that cell
is the one of the rightmost reference that fails.
-/

namespace TableCalc

/-- A cell that is there already changes nothing when it is inserted. -/
lemma Grid.insert_eq_self {g : Grid} {z : Address} {cell : Cell} (h : g[z]? = some cell) :
    g.insert z cell = g := by
  refine Grid.ext_getElem? fun a => ?_
  rw [getElem?_insert]
  split
  · rename_i hza
    rw [← hza, h]
  · rfl

namespace Table
open Evaluation Expression Relation

variable {t : Table}

/-- A cell to which a reference has a value is computed as this value. -/
lemma computed_of_justified {z value} (h : Justified t.raw (.reference z) (.ok value)) :
    t.compute.2.computed[z]? = some (.number value) := by
  rcases (h.yields_iff value.toInt).1 (yields_ok.2 rfl) with ⟨value', hz, same⟩ | valued
  · rw [Int64.toInt_inj.1 same] at hz
    exact getElem?_computed_of_plain hz rfl
  · obtain ⟨e, hz⟩ := valued.holds
    obtain ⟨outcome, justified, hcell⟩ := exists_computed hz
    have yields := (justified.yields_iff value.toInt).2 ((valued_reference_iff hz).1 (.inr valued))
    rw [hcell, yields_toInt_iff.1 yields]
    rfl

/-- A reference to a computed number has this value. -/
lemma justified_of_computed {z value} (h : t.compute.2.computed[z]? = some (.number value)) :
    Justified t.raw (.reference z) (.ok value) := by
  have hmem : z ∈ t.raw := mem_computed.1 (Grid.isSome_getElem?_iff_mem.1 (by simp [h]))
  obtain ⟨cell, hz⟩ := Option.isSome_iff_exists.1 (Grid.isSome_getElem?_iff_mem.2 hmem)
  cases plain : cell.isExpression with
  | false =>
    cases h.symm.trans (getElem?_computed_of_plain hz plain)
    exact .plain hz rfl
  | true =>
    obtain ⟨e, hz⟩ : ∃ e, Holds t.raw z e := by
      cases cell <;> simp [Cell.isExpression, Cell.source?] at plain
      exact ⟨_, .of_eq hz⟩
    obtain ⟨outcome, justified, hcell⟩ := exists_computed hz
    rw [h, Option.some.injEq, eq_comm, ofOutcome_eq_number_iff] at hcell
    exact .remembered hz (hcell ▸ justified)

/-- A cell with a computed error has no value. -/
lemma valueless_of_holdsError {w : Address} (h : t.compute.2.computed.holdsError w = true) :
    Valueless t.raw w := by
  by_contra valued
  obtain ⟨value, justified⟩ := not_valueless_iff.1 valued
  obtain ⟨message, hcell⟩ := Grid.holdsError_iff.1 h
  cases (computed_of_justified justified).symm.trans hcell

/-- An expression cell without a value has a computed error. -/
lemma holdsError_of_valueless {w e} (hw : Holds t.raw w e) (h : Valueless t.raw w) :
    t.compute.2.computed.holdsError w = true := by
  obtain ⟨outcome, justified, hcell⟩ := exists_computed hw
  rw [Grid.holdsError_iff, hcell]
  simp only [Option.some.injEq]
  refine ofOutcome_eq_error_iff.2 ?_
  rintro ⟨n, yields⟩
  exact h ⟨n, (valued_reference_iff hw).2 ((justified.yields_iff n).1 yields)⟩

/-- After a pass, an expression is evaluated without any other evaluation. -/
lemma exists_evaluateAndStore_computed {x source} (hx : t.raw[x]? = some (.expression source)) :
    ∃ outcome, Justified t.raw (.cell x (normalize source)) outcome ∧
      (∀ y, outcome ≠ .error (.circularReference y)) ∧
      t.compute.2.evaluateAndStore x (normalize source) =
        (outcome,
          { t.compute.2 with computed := t.compute.2.computed.insert x (.ofOutcome outcome) }) := by
  have ready : Ready t.raw { memo := t.compute.2.computed } := ready_compute t
  obtain ⟨outcome, final, run, same⟩ :=
    exists_runs_evaluateAndStore t.raw { memo := t.compute.2.computed } x (normalize source)
  have justified := (ready.next (.of_eq hx) run).1
  cases run with
  | cell run =>
    obtain ⟨rfl, noncircular⟩ := run.of_complete ready.settled (fun z hz => mem_computed.2 hz) nofun
    refine ⟨outcome, justified, noncircular, ?_⟩
    have raw : t.compute.2.raw = t.raw := rfl
    rw [evaluateAndStore, raw, same]
    rfl

/-- Of the references in the expression of `x` to cells with a computed error, the rightmost one is
to `z`. -/
def RightmostError (t : Table) (x z : Address) : Prop :=
  ∃ e, Holds t.raw x e ∧ RightmostReference (fun w => t.computed.holdsError w = true) (tokenize e) z

/-- The cell that is blamed is the one of the rightmost reference to an error. -/
lemma RightmostError.of_blames {x z} (blame : Blames t.raw x z)
    (hz : t.compute.2.computed.holdsError z = true) :
    RightmostError t.compute.2 x z := by
  obtain ⟨e, hx⟩ := blame.holds
  exact ⟨e, hx, (blame.rightmost hx).imp hz fun _ _ _ _ => valueless_of_holdsError⟩

/-- Right after a pass, an expression cell that does not hold a circular reference has the outcome
again that it holds, and nothing changes. An expression cell that does hold one fails because of the
rightmost of its references to a cell that holds an error, and nothing but the cell itself changes.
-/
theorem evaluateAndStore_computed (t : Table) (x : Address) (source : String)
    (hx : t.raw[x]? = some (.expression source)) :
    ((∀ y : Address,
      t.compute.2.computed[x]? ≠ some (.error (EvalError.circularReference y).message)) →
      ∃ outcome, t.compute.2.computed[x]? = some (.ofOutcome outcome) ∧
        t.compute.2.evaluateAndStore x (normalize source) = (outcome, t.compute.2)) ∧
    ∀ y : Address, t.compute.2.computed[x]? =
      some (.error (EvalError.circularReference y).message) →
      ∃ z, RightmostError t.compute.2 x z ∧
        t.compute.2.evaluateAndStore x (normalize source) =
          (.error (.propagated z),
            { t.compute.2 with
              computed := t.compute.2.computed.insert x (.error (EvalError.propagated z).message)
                }) := by
  have hz : Holds t.raw x (normalize source) := .of_eq hx
  obtain ⟨outcome, justified, noncircular, again⟩ := exists_evaluateAndStore_computed hx
  refine ⟨fun silent => ?_, fun y reports => ?_⟩
  · obtain ⟨outcome', justified', hcell⟩ := exists_computed hz
    have noncircular' : ∀ y, outcome' ≠ .error (.circularReference y) := by
      rintro y rfl
      exact silent y hcell
    obtain rfl := justified.unique_of_not_circular justified' noncircular noncircular'
    rw [Grid.insert_eq_self hcell] at again
    exact ⟨outcome, hcell, again⟩
  · -- the cell that passed the circular reference on is settled by now, with an error
    obtain ⟨z, blame, circular⟩ := exists_blames_of_reports hz reports
    have rightmost := RightmostError.of_blames blame (Grid.holdsError_iff.2 ⟨_, circular⟩)
    obtain ⟨e, he, -, blamed⟩ := blame
    cases hz.unique he
    obtain rfl := justified.unique_of_not_circular blamed noncircular nofun
    exact ⟨z, rightmost, again⟩

/-- In the tangled row, the fourth cell has its outcome again, and the third one now passes the
error on. -/
theorem evaluateAndStore_computed_tangledRow :
    tangledRow.raw[(⟨0, 3⟩ : Address)]? = some (.expression "D1+E1") ∧
    tangledRow.raw[(⟨0, 2⟩ : Address)]? = some (.expression "B1") ∧
    (tangledRow.compute.2.evaluateAndStore ⟨0, 3⟩ (normalize "D1+E1")).2 = tangledRow.compute.2 ∧
    ∃ z, (tangledRow.compute.2.evaluateAndStore ⟨0, 2⟩ (normalize "B1")).1 =
      .error (.propagated z) := by
  have hfourth : tangledRow.raw[(⟨0, 3⟩ : Address)]? = some (.expression "D1+E1") := rfl
  have hthird : tangledRow.raw[(⟨0, 2⟩ : Address)]? = some (.expression "B1") := rfl
  obtain ⟨-, -, third, fourth⟩ := computed_tangledRow
  refine ⟨hfourth, hthird, ?_, ?_⟩
  · obtain ⟨outcome, -, again⟩ :=
      (evaluateAndStore_computed tangledRow _ _ hfourth).1 fourth.not_reportsCircular
    rw [again]
  · obtain ⟨z, -, again⟩ := (evaluateAndStore_computed tangledRow _ _ hthird).2 _ third
    exact ⟨z, by rw [again]⟩

end Table

end TableCalc
