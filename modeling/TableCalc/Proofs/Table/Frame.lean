import TableCalc.Proofs.Evaluation.Frame
import TableCalc.Proofs.Table.Calls

/-!
# What a single evaluation does to a table

A table that is asked to evaluate an expression for a cell keeps its size and its raw cells, and it
keeps the results of all other cells. The outcome becomes the result of the cell, whatever the cell
is and whether there is one at all. What else is new are the results of expression cells without a
result, to which references lead from the expression; these are the cells whose evaluation was
called for on the way, and the results are the outcomes of their evaluations
(`evaluateAndStore_framed`).
-/

namespace TableCalc
open Expression Evaluation Relation

/-- The outcome stands in the grid: a value as a number, a failure as an error with its message. -/
structure Grid.Shows (g : Grid) (z : Address) (outcome : Outcome) : Prop where
  value : ∀ n, outcome = .ok n → g[z]? = some (.number n)
  failure : ∀ e : EvalError, outcome = .error e → g[z]? = some (.error e.message)

/-- A grid shows an outcome at the address where this is stored. -/
lemma Grid.shows_iff {g : Grid} {z : Address} {outcome : Outcome} :
    g.Shows z outcome ↔ g[z]? = some (.ofOutcome outcome) := by
  cases outcome with
  | ok n => exact ⟨fun h => h.value n rfl, fun h => ⟨by rintro _ ⟨⟩; exact h, nofun⟩⟩
  | error e => exact ⟨fun h => h.failure e rfl, fun h => ⟨nofun, by rintro _ ⟨⟩; exact h⟩⟩

namespace Table

/-- The evaluation of `e` for `z` in a table calls for the evaluation of `e'` for `y`, from `s`. -/
def Calls (t : Table) (z : Address) (e : String) (s : Evaluation) (y : Address) (e' : String) :
    Prop :=
  Called t.raw ({ memo := t.computed }, .cell z e) s y e'

/-- The expression mentions a cell from which references lead to `y`. -/
def Reaches (t : Table) (e : String) (y : Address) : Prop :=
  ∃ w, Mentions e w ∧ ReflTransGen (References t.raw) w y

/-- What the evaluation of `e` for `z`, with this outcome, makes of the table `t`. -/
structure Framed (t : Table) (z : Address) (e : String) (outcome : Outcome) (t' : Table) :
    Prop where
  width_eq : t'.width = t.width
  height_eq : t'.height = t.height
  raw_eq : t'.raw = t.raw
  /-- The outcome is the result of the cell. -/
  stored : t'.computed.Shows z outcome
  /-- Other results stay. -/
  kept : ∀ y ≠ z, ∀ cell, t.computed[y]? = some cell → t'.computed[y]? = some cell
  /-- Other results are new only where an expression is that was not evaluated yet and has been on
  the way. -/
  added : ∀ y ≠ z, ∀ cell, t.computed[y]? = none → t'.computed[y]? = some cell →
    (∃ source, t.raw[y]? = some (.expression source)) ∧ t.Reaches e y ∧ ∃ s e', t.Calls z e s y e'
  /-- What is evaluated on the way had no result, is evaluated with the expression of the cell, and
  has its outcome as the result in the end. -/
  evaluated : ∀ s y e', t.Calls z e s y e' → y ≠ z → t.computed[y]? = none ∧ Holds t.raw y e' ∧
    t.Reaches e y ∧
    t'.computed.Shows y ((Evaluation.evaluateAndStore t.raw y e').run.run s).1

/-- An evaluation is framed if no expression was among the computed cells. -/
lemma framed_of_settled {t : Table} (settled : t.computed.Settled) (z : Address) (e : String) :
    t.Framed z e (t.evaluateAndStore z e).1 (t.evaluateAndStore z e).2 := by
  obtain ⟨outcome, final, run, same⟩ :=
    exists_runs_evaluateAndStore t.raw { memo := t.computed } z e
  have placed : Placed t.raw z e { memo := t.computed } (.cell z e) := .initial settled rfl
  have known : t.evaluateAndStore z e = (outcome, { t with computed := final.memo }) := by
    rw [Table.evaluateAndStore, same]
  rw [known]
  refine ⟨rfl, rfl, rfl, Grid.shows_iff.2 run.getElem?_cell, ?_, ?_, ?_⟩
  · intro y hy cell before
    exact run.kept settled (Ne.symm hy) before
  · intro y hy cell before after
    have new : y ∉ t.computed ∧ y ∈ final.memo := by
      rw [← Grid.isSome_getElem?_iff_mem, ← Grid.isSome_getElem?_iff_mem, before, after]
      simp
    obtain ⟨s, e', called⟩ := run.called_of_new new.1 new.2
    obtain ⟨⟨source, hy', -⟩, reaches⟩ := called.reached placed (Ne.symm hy)
    exact ⟨⟨source, hy'⟩, reaches, s, e', called⟩
  · intro s y e' called hy
    have absent : y ∉ t.computed := called.not_mem_memo placed (Ne.symm hy)
    obtain ⟨holds, reaches⟩ := called.reached placed (Ne.symm hy)
    obtain ⟨outcome', u, run', hfinal⟩ := called.stored placed run
    rw [runs_cell_iff.1 run', Grid.shows_iff]
    exact ⟨Grid.getElem?_eq_none absent, holds, reaches, hfinal⟩

/-- Whatever calls were made of a table, and whatever cell and expression it is asked to evaluate,
it keeps its size, its raw cells and its results. The outcome becomes the result of the cell, and
the only other new results are the outcomes of expression cells that references lead to, and that
had no result. -/
theorem evaluateAndStore_framed {width height : Nat} {t₀ t : Table} {record : List (Call × Answer)}
    (h : empty width height = .ok t₀) (calls : List Call) (hrun : t₀.run calls = (record, t))
    (z : Address)
    (e : String) : t.Framed z e (t.evaluateAndStore z e).1 (t.evaluateAndStore z e).2 := by
  obtain ⟨-, rfl⟩ := empty_eq_ok h
  have sound : Sound width height (Table.run { width, height } calls).2 := sound_empty.run calls
  rw [hrun] at sound
  exact framed_of_settled sound.settled z e

/-- Three cells, of which the last one was given another result already. -/
def chainCalls : List Call :=
  [.setCell 0 0 (some "=C1+1"), .setCell 0 1 (some "=A1/0"), .setCell 0 2 (some "3"),
    .evaluate ⟨0, 2⟩ "9"]

/-- The evaluation of `B1+A1` fails at the second reference. By then the first cell has its result,
and the third one keeps the 9 that it had. -/
theorem evaluateAndStore_framed_chainCalls :
    ∃ t₀ record t, empty 3 1 = .ok t₀ ∧ t₀.run chainCalls = (record, t) ∧
      (t.evaluateAndStore ⟨30, 9⟩ "B1+A1").1 = .error (.propagated ⟨0, 1⟩) ∧
      (t.evaluateAndStore ⟨30, 9⟩ "B1+A1").2.raw = t.raw ∧
      (t.evaluateAndStore ⟨30, 9⟩ "B1+A1").2.computed[(⟨30, 9⟩ : Address)]? =
        some (.error "Expression error in cell B1") ∧
      (t.evaluateAndStore ⟨30, 9⟩ "B1+A1").2.computed[(⟨0, 2⟩ : Address)]? = some (.number 9) ∧
      t.computed[(⟨0, 0⟩ : Address)]? = none ∧
      (t.evaluateAndStore ⟨30, 9⟩ "B1+A1").2.computed[(⟨0, 0⟩ : Address)]? = some (.number 10) ∧
      t.Reaches "B1+A1" ⟨0, 0⟩ := by
  have made : empty 3 1 = .ok { width := 3, height := 1 } := rfl
  have framed := evaluateAndStore_framed made chainCalls (Prod.eta _).symm ⟨30, 9⟩ "B1+A1"
  refine ⟨_, _, _, made, (Prod.eta _).symm, ?_⟩
  generalize ht : (Table.run { width := 3, height := 1 } chainCalls).2 = t at framed ⊢
  have failed : (t.evaluateAndStore ⟨30, 9⟩ "B1+A1").1 = .error (.propagated ⟨0, 1⟩) := by
    subst ht
    decide +kernel
  have message : (EvalError.propagated ⟨0, 1⟩).message = "Expression error in cell B1" := by
    decide +kernel
  have before : t.computed[(⟨0, 0⟩ : Address)]? = none := by
    subst ht
    decide +kernel
  have after : (t.evaluateAndStore ⟨30, 9⟩ "B1+A1").2.computed[(⟨0, 0⟩ : Address)]? =
      some (.number 10) := by
    subst ht
    decide +kernel
  have given : t.computed[(⟨0, 2⟩ : Address)]? = some (.number 9) := by
    subst ht
    decide +kernel
  exact ⟨failed, framed.raw_eq, message ▸ framed.stored.failure _ failed,
    framed.kept ⟨0, 2⟩ (by decide) _ given,
    before, after, (framed.added ⟨0, 0⟩ (by decide) _ before after).2.1⟩

end Table

end TableCalc
