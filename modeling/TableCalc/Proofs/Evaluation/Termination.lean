import TableCalc.Proofs.Evaluation.Adequacy
import TableCalc.Proofs.Evaluation.Placement

/-!
# Termination and the trail

An evaluation that begins with an empty trail ends, whatever the raw grid: there is a finite
derivation of it by the rules, and the bound on the depth is never met.

`CallsFor raw` leads from a task to the tasks that it calls for, so its closure leads to everything
that the evaluator comes to work on in the course of a run. The invariant `Placed` is kept by a
single step (`CallsFor.placed`) and hence by all of them (`placed_of_callsFor`). It gives the shape
of the trail at every call: the trail is a path of the reference graph without repetitions, which is
why it cannot grow for ever.
-/

namespace TableCalc.Evaluation
open Expression Relation

/-- What the evaluator is at work on, and the evaluation in which it is. -/
abbrev Position := Evaluation × Task

/-- Work at the first position calls for work at the second. -/
inductive CallsFor (raw : Grid) : Position → Position → Prop where
  | fold {s z expression} :
    CallsFor raw (s, .cell z expression) (s.enter z, .fold (tokenize expression).reverse)
  | operand {s last earlier} :
    CallsFor raw (s, .fold (last :: earlier)) (s, .operand last)
  | earlier {s t last symbol earlier rhs op} :
    Runs raw s (.operand last) (.ok rhs) t →
    operator symbol = .ok op →
    CallsFor raw (s, .fold (last :: symbol :: earlier)) (t, .fold earlier)
  | reference {s lexeme z} :
    Token.classify lexeme = .ok (.reference z) →
    CallsFor raw (s, .operand lexeme) (s, .reference z)
  | nested {s z given source} :
    raw[z]? = some given →
    s.memo[z]?.getD given = .expression source →
    z ∉ s.trail.path →
    CallsFor raw (s, .reference z) (s, .cell z (normalize source))

variable {raw : Grid} {start : Address} {e₀ : String}

/-- The invariant passes to whatever a task calls for. -/
lemma CallsFor.placed {p q} (calls : CallsFor raw p q) (h : Placed raw start e₀ p.1 p.2) :
    Placed raw start e₀ q.1 q.2 := by
  cases calls with
  | fold => exact h.fold
  | operand => exact h.operand
  | earlier run _ => exact h.earlier run
  | reference hc => exact h.reference hc
  | nested hz hcell hmem => exact h.nested hz hcell hmem

/-- The invariant passes to whatever is called for in the end. -/
lemma placed_of_callsFor {p q} (calls : ReflTransGen (CallsFor raw) p q)
    (h : Placed raw start e₀ p.1 p.2) :
    Placed raw start e₀ q.1 q.2 := by
  induction calls with
  | refl => exact h
  | tail _ call ih => exact call.placed ih

/-- What is so whenever the evaluator calls for the evaluation of `e` for `z`, from `s`, in a run
that began with the evaluation of `e₀` for `start`. -/
structure Disciplined (raw : Grid) (start : Address) (e₀ : String) (s : Evaluation) (z : Address)
    (e : String) :
    Prop where
  /-- The cell is not on the trail yet. -/
  enters : (s.trail.enter z).1 = true
  nodup : (s.trail.enter z).2.path.Nodup
  length_le : (s.trail.enter z).2.path.length ≤ 1 + raw.expressions.length
  /-- Each cell after the first is an expression cell to which the expression before it refers. -/
  leads : Leads raw start e₀ (s.trail.enter z).2.path e
  /-- The call ends, and the trail is what it was before. -/
  returns : ∃ outcome t, Runs raw s (.cell z e) outcome t ∧ t.trail = s.trail

/-- An evaluation for which the invariant is true is disciplined. -/
lemma Placed.disciplined {s z e} (h : Placed raw start e₀ s (.cell z e)) :
    Disciplined raw start e₀ s z e where
  enters := Trail.enter_fst_iff.2 h.not_mem
  nodup := h.nodup_enter
  length_le := h.leads_enter.length_le h.nodup_enter
  leads := h.leads_enter
  returns := ⟨_, _, follows_evaluateAndStore, follows_evaluateAndStore.trail_eq h.not_mem⟩

/-- An evaluation with an empty trail ends, within any room that has a place for every raw cell and
one more, and each call it makes finds and leaves the trail in order. -/
theorem evaluation_ends_on_simple_trails (raw computed : Grid) (settled : computed.Settled)
    (start : Address) (expression : String) :
    (∃ outcome final, Runs raw { memo := computed } (.cell start expression) outcome final ∧
      (evaluateAndStore raw start expression).run.run { memo := computed } = (outcome, final) ∧
      ∀ room, raw.size < room →
        (evaluateWithin raw room start expression).run.run { memo := computed } =
          (outcome, final)) ∧
    ∀ s z e, ReflTransGen (CallsFor raw) ({ memo := computed }, .cell start expression)
      (s, .cell z e) →
      Disciplined raw start expression s z e := by
  refine ⟨?_, ?_⟩
  · obtain ⟨outcome, final, run, same⟩ :=
      exists_runs_evaluateAndStore raw { memo := computed } start expression
    refine ⟨outcome, final, run, same, ?_⟩
    intro room hroom
    have run' : Follows raw { memo := computed } (.cell start expression)
        (evaluateWithin raw room start expression) :=
      follows_evaluateWithin (Nat.lt_of_le_of_lt openCells_le hroom)
    obtain ⟨e, e'⟩ := run'.deterministic run
    exact Prod.ext e e'
  · intro s z e calls
    exact (placed_of_callsFor calls (.initial settled rfl)).disciplined

/-- Two cells that refer to each other. -/
def twoCycle : Grid :=
  (∅ : Grid).insert ⟨0, 0⟩ (.expression "b1") |>.insert ⟨0, 1⟩ (.expression "a1")

/-- The cells of a cycle are entered in turn, and the second one finds the first one on the trail.
-/
theorem evaluation_ends_on_twoCycle :
    Grid.Settled ∅ ∧
    (∃ final,
      Runs twoCycle { memo := ∅ } (.cell ⟨0, 0⟩ "B1") (.error (.circularReference ⟨0, 0⟩)) final) ∧
    Disciplined twoCycle ⟨0, 0⟩ "B1" (enter ⟨0, 0⟩ { memo := ∅ }) ⟨0, 1⟩ "A1" := by
  obtain ⟨⟨outcome, final, run, h, -⟩, calls⟩ :=
    evaluation_ends_on_simple_trails twoCycle ∅ Grid.settled_empty ⟨0, 0⟩ "B1"
  have circular : outcome = .error (.circularReference ⟨0, 0⟩) := (congrArg Prod.fst h).symm
  refine ⟨Grid.settled_empty, ⟨final, circular ▸ run⟩, calls _ _ _ ?_⟩
  have lexemes : tokenize "B1" = ["B1"] := by decide
  have mention : Token.classify "B1" = .ok (.reference ⟨0, 1⟩) := rfl
  have source : twoCycle[(⟨0, 1⟩ : Address)]? = some (.expression "a1") := rfl
  have call : CallsFor twoCycle (enter ⟨0, 0⟩ { memo := ∅ }, .reference ⟨0, 1⟩)
      (enter ⟨0, 0⟩ { memo := ∅ }, .cell ⟨0, 1⟩ (normalize "a1")) :=
    .nested source rfl (by decide)
  refine .head .fold ?_
  rw [lexemes]
  exact .head .operand (.head (.reference mention) (.single call))

end TableCalc.Evaluation
