import Mathlib.Data.List.Forall2
import TableCalc.Proofs.Table.Computed

/-!
# Evaluation on demand

Expression cells can also be evaluated one by one, each call on the results that the calls before it
have left behind. Nothing is copied first, an order is not prescribed, and a cell may be evaluated
again. Every call finds the evaluator ready and leaves it ready (`exists_evaluateAndStore`), hence
all outcomes are justified (`evaluateInTurn_justified`), as are those of a pass.

Two justified outcomes of one cell are the same number or both failures (`Justified.ok_iff`), and
they are equal if no cycle can be reached from the cell (`Justified.unique`). On a cycle the
failures may differ, since the evaluation that is begun first decides where the cycle is noticed.
-/

namespace TableCalc
open Evaluation Expression

variable {raw : Grid}

/-- Where no cycle can be reached, the justified outcome is one. -/
lemma Evaluation.Justified.unique {z e outcome outcome'}
    (justified : Justified raw (.cell z e) outcome)
    (justified' : Justified raw (.cell z e) outcome') (acyclic : (Task.cell z e).Acyclic raw) :
    outcome = outcome' :=
  Naive.Ends.unique (justified.naive acyclic) (justified'.naive acyclic)

namespace Table

/-- Evaluates expressions in turn, each as the value of its cell. -/
def evaluateInTurn (t : Table) : List (Address × String) → List Outcome × Table
  | [] => ([], t)
  | (x, source) :: calls =>
    let (outcome, next) := t.evaluateAndStore x (normalize source)
    let (outcomes, last) := next.evaluateInTurn calls
    (outcome :: outcomes, last)

/-- A single evaluation has a justified outcome and leaves the table ready for the next one. -/
lemma exists_evaluateAndStore {t : Table} {x source} (ready : Ready t.raw { memo := t.computed })
    (hx : t.raw[x]? = some (.expression source)) :
    ∃ outcome computed, t.evaluateAndStore x (normalize source) = (outcome, { t with computed }) ∧
      Justified t.raw (.cell x (normalize source)) outcome ∧ Ready t.raw { memo := computed } := by
  obtain ⟨outcome, final, run, same⟩ :=
    exists_runs_evaluateAndStore t.raw { memo := t.computed } x (normalize source)
  obtain ⟨justified, ready'⟩ := ready.next (.of_eq hx) run
  refine ⟨outcome, final.memo, ?_, justified, rfl, ready'.settled, ready'.recorded⟩
  rw [Table.evaluateAndStore, same]

/-- Evaluations in turn have justified outcomes, whatever the order. -/
lemma evaluateInTurn_justified {t : Table} {calls : List (Address × String)}
    (ready : Ready t.raw { memo := t.computed })
    (own : ∀ call ∈ calls, t.raw[call.1]? = some (.expression call.2)) :
    List.Forall₂ (fun call outcome => Justified t.raw (.cell call.1 (normalize call.2)) outcome)
      calls (t.evaluateInTurn calls).1 := by
  induction calls generalizing t with
  | nil => exact .nil
  | cons call calls ih =>
    obtain ⟨x, source⟩ := call
    obtain ⟨outcome, computed, same, justified, ready'⟩ :=
      exists_evaluateAndStore ready (own (x, source) (by simp))
    have rest : ∀ call ∈ calls, t.raw[call.1]? = some (.expression call.2) := fun call hcall =>
      own call (by simp [hcall])
    rw [evaluateInTurn, same]
    exact .cons justified (@ih { t with computed } ready' rest)

/-- What is justified agrees with what a pass computes. -/
lemma agrees_of_justified {t : Table} {x e outcome}
    (justified : Justified t.raw (.cell x e) outcome) (hx : Holds t.raw x e) :
    (∀ value, outcome = .ok value ↔ t.compute.2.computed[x]? = some (.number value)) ∧
    (Acyclic t.raw x → ∀ e,
      outcome = .error e → t.compute.2.computed[x]? = some (.error e.message)) := by
  obtain ⟨outcome', justified', hcell⟩ := exists_computed hx
  refine ⟨?_, ?_⟩
  · intro value
    rw [hcell, Option.some.injEq, ofOutcome_eq_number_iff]
    exact justified.ok_iff justified' value
  · rintro acyclic e rfl
    rw [hcell, ← justified.unique justified' (Task.Acyclic.cell acyclic hx)]
    rfl

/-- On a table that is not computed yet, evaluations of expression cells in any order agree with a
pass: each of them yields the number that a pass computes, or fails where a pass computes an error,
with the same message if no cycle can be reached. -/
theorem evaluateInTurn_agrees (t : Table) (fresh : t.computed = ∅) (calls : List (Address × String))
    (own : ∀ call ∈ calls, t.raw[call.1]? = some (.expression call.2)) :
    List.Forall₂ (fun call outcome =>
      (∀ value, outcome = .ok value ↔ t.compute.2.computed[call.1]? = some (.number value)) ∧
      (Acyclic t.raw call.1 → ∀ e,
        outcome = .error e → t.compute.2.computed[call.1]? = some (.error e.message)))
      calls (t.evaluateInTurn calls).1 := by
  have ready : Ready t.raw { memo := t.computed } := by
    rw [fresh]
    exact ⟨rfl, Grid.settled_empty, recorded_empty⟩
  refine List.Forall₂.imp ?_
    ((List.forall₂_and_left _ _).2 ⟨own, evaluateInTurn_justified ready own⟩)
  rintro call outcome ⟨hx, justified⟩
  exact agrees_of_justified justified (.of_eq hx)

/-- Two cells of the row evaluated from the right to the left, and the first of them again. -/
theorem evaluateInTurn_agrees_knottedRow :
    let calls := [((⟨0, 4⟩ : Address), "2+3*d1"), (⟨0, 2⟩, "d1/0"), (⟨0, 4⟩, "2+3*d1")]
    knottedRow.computed = ∅ ∧
      (∀ call ∈ calls, knottedRow.raw[call.1]? = some (.expression call.2)) ∧
      (knottedRow.evaluateInTurn calls).1 = [.ok 35, .error .divisionByZero, .ok 35] ∧
      knottedRow.compute.2.computed[(⟨0, 4⟩ : Address)]? = some (.number 35) ∧
      knottedRow.compute.2.computed[(⟨0, 2⟩ : Address)]? = some (.error "Division by zero") := by
  intro calls
  have own : ∀ call ∈ calls, knottedRow.raw[call.1]? = some (.expression call.2) := by decide
  have outcomes : (knottedRow.evaluateInTurn calls).1 = [.ok 35, .error .divisionByZero, .ok 35] :=
    rfl
  have agrees := evaluateInTurn_agrees knottedRow rfl calls own
  rw [outcomes] at agrees
  obtain ⟨last, agrees⟩ := List.forall₂_cons.1 agrees
  obtain ⟨third, -⟩ := List.forall₂_cons.1 agrees
  exact ⟨rfl, own, outcomes, (last.1 35).1 rfl, third.2 acyclic_knottedRow _ rfl⟩

end Table

end TableCalc
