import TableCalc.Proofs.Evaluation.Termination

/-!
# What an evaluation leaves as it was

An evaluation stores results while it is under way, and may fail at any time. Whatever was stored
before stays: the only result that is replaced is the one of the cell that the evaluation is for
(`Runs.kept`). And whatever is new was evaluated on the way: where there is a result that was not
there before, there was a call for the evaluation of that cell (`Runs.called_of_new`).

A cell whose evaluation is called for on the way had no result (`Called.not_mem_memo`), and it is an
expression cell that the first expression reaches (`Called.reached`). Its outcome becomes its
result, and as nothing is replaced, the result is still there when the first evaluation comes to its
end (`Called.stored`).
-/

namespace TableCalc.Evaluation
open Expression Relation

variable {raw : Grid}

/-- The task is the evaluation of an expression for the cell `y`. -/
def Task.IsFor (y : Address) : Task → Prop
  | .cell z _ => z = y
  | .fold _ | .operand _ | .reference _ => False

/-- A run keeps all results but the one of the cell it is for. -/
theorem Runs.kept {s task outcome t y cell} (run : Runs raw s task outcome t)
    (settled : s.memo.Settled)
    (other : ¬ task.IsFor y) (h : s.memo[y]? = some cell) : t.memo[y]? = some cell := by
  induction run with
  | @cell _ _ z _ _ _ ih =>
    have hne : z ≠ y := other
    rw [memo_leave, Grid.getElem?_insert, if_neg hne]
    exact ih settled id h
  | unfinished => exact h
  | first _ ih => exact ih settled id h
  | operandFails _ ih => exact ih settled id h
  | operatorFails _ _ ih => exact ih settled id h
  | step run _ _ ih ihEarlier => exact ihEarlier (run.memo_settled settled) id (ih settled id h)
  | unknown _ => exact h
  | literal _ => exact h
  | misplaced _ => exact h
  | reference _ _ ih => exact ih settled id h
  | undefined _ => exact h
  | settled _ _ => exact h
  | circular _ _ _ => exact h
  | nested _ hcell _ _ ih =>
    -- the cell that is evaluated has no result yet, so it is not the one to be kept
    refine ih settled ?_ h
    rintro rfl
    cases (settled.fresh hcell).1.symm.trans h

/-- Work at the position calls, directly or not, for the evaluation of `e` for `y` from `s`. -/
def Called (raw : Grid) (p : Position) (s : Evaluation) (y : Address) (e : String) : Prop :=
  ReflTransGen (CallsFor raw) p (s, .cell y e)

/-- A new result is the one of a cell whose evaluation was called for. -/
theorem Runs.called_of_new {s task outcome t y} (run : Runs raw s task outcome t)
    (before : y ∉ s.memo) (after : y ∈ t.memo) : ∃ s' e, Called raw (s, task) s' y e := by
  -- what is called for by a task that another one calls for is called for by that one too
  have through {p q : Position} (calls : CallsFor raw p q) (h : ∃ s' e, Called raw q s' y e) :
      ∃ s' e, Called raw p s' y e := by
    obtain ⟨s', e, called⟩ := h
    exact ⟨s', e, .head calls called⟩
  induction run with
  | @cell s t z e outcome _ ih =>
    rw [memo_leave, Grid.mem_insert] at after
    rcases after with rfl | after
    · exact ⟨s, e, .refl⟩
    · exact through .fold (ih before after)
  | unfinished => exact absurd after before
  | first _ ih => exact through .operand (ih before after)
  | operandFails _ ih => exact through .operand (ih before after)
  | operatorFails _ _ ih => exact through .operand (ih before after)
  | @step s t u _ _ _ _ _ _ run hop _ ih ihEarlier =>
    by_cases between : y ∈ t.memo
    · exact through .operand (ih before between)
    · exact through (.earlier run hop) (ihEarlier between after)
  | unknown _ => exact absurd after before
  | literal _ => exact absurd after before
  | misplaced _ => exact absurd after before
  | reference hc _ ih => exact through (.reference hc) (ih before after)
  | undefined _ => exact absurd after before
  | settled _ _ => exact absurd after before
  | circular _ _ _ => exact absurd after before
  | nested hz hcell hmem _ ih => exact through (.nested hz hcell hmem) (ih before after)

namespace CallsFor

variable {p q : Position} {z : Address}

/-- A cell that is under evaluation stays so for everything that is called for in the meantime. -/
lemma mem_path (calls : CallsFor raw p q) (h : z ∈ p.1.trail.path) : z ∈ q.1.trail.path := by
  cases calls with
  | fold =>
    rw [trail_enter, Trail.enter]
    split
    · exact h
    · exact List.mem_append_left _ h
  | operand => exact h
  | earlier run _ => exact (run.trail_eq trivial).symm ▸ h
  | reference _ => exact h
  | nested _ _ _ => exact h

/-- A cell that has a result keeps having one. -/
lemma mem_memo (calls : CallsFor raw p q) (h : z ∈ p.1.memo) : z ∈ q.1.memo := by
  cases calls with
  | fold => exact h
  | operand => exact h
  | earlier run _ => exact run.mem_memo h
  | reference _ => exact h
  | nested _ _ _ => exact h

end CallsFor

/-- A cell that is under evaluation stays so for everything that is called for in the meantime. -/
lemma mem_path_of_callsFor {p q : Position} {z} (calls : ReflTransGen (CallsFor raw) p q)
    (h : z ∈ p.1.trail.path) :
    z ∈ q.1.trail.path := by
  induction calls with
  | refl => exact h
  | tail _ call ih => exact call.mem_path ih

/-- A result that is there stays there for all that is called. -/
lemma mem_memo_of_callsFor {p q : Position} {z} (calls : ReflTransGen (CallsFor raw) p q)
    (h : z ∈ p.1.memo) :
    z ∈ q.1.memo := by
  induction calls with
  | refl => exact h
  | tail _ call ih => exact call.mem_memo ih

namespace Called

variable {start : Address} {e₀ : String} {p : Position} {s t : Evaluation} {y z : Address}
  {e : String}
  {outcome : Outcome}

/-- While a cell is under evaluation, another evaluation of it is not called for. -/
lemma ne_of_mem_path (called : Called raw p s y e) (placed : Placed raw start e₀ p.1 p.2)
    (h : z ∈ p.1.trail.path) :
    z ≠ y := by
  rintro rfl
  exact (placed_of_callsFor called placed).not_mem (mem_path_of_callsFor called h)

/-- What is called for on the way is the evaluation of a cell without a result. -/
lemma not_mem_memo (called : Called raw p s y e) (placed : Placed raw start e₀ p.1 p.2)
    (other : ¬ p.2.IsFor y) :
    y ∉ p.1.memo := by
  intro h
  rcases ReflTransGen.cases_tail called with rfl | ⟨q, calls, last⟩
  · exact other rfl
  · have hy : y ∈ q.1.memo := mem_memo_of_callsFor calls h
    have placed : Placed raw start e₀ q.1 q.2 := placed_of_callsFor calls placed
    cases last with
    | nested _ hcell _ =>
      have absent := (placed.fresh hcell).1
      rw [← Grid.isSome_getElem?_iff_mem, absent] at hy
      cases hy

/-- The outcome of an evaluation that is called for on the way stands in the memo at the end. -/
theorem stored (called : Called raw p s y e) (placed : Placed raw start e₀ p.1 p.2)
    (run : Runs raw p.1 p.2 outcome t) :
    ∃ outcome' u, Runs raw s (.cell y e) outcome' u ∧ t.memo[y]? = some (.ofOutcome outcome') := by
  induction called using ReflTransGen.head_induction_on generalizing outcome t with
  | refl => exact ⟨outcome, t, run, run.getElem?_cell⟩
  | @head p q calls called ih =>
    have next : Placed raw start e₀ q.1 q.2 := calls.placed placed
    cases calls with
    | @fold s z _ =>
      cases run with
      | cell run =>
        obtain ⟨outcome', u, run', hy⟩ := ih next run
        have entered : z ∈ (s.enter z).trail.path := by
          rw [trail_enter, Trail.path_enter placed.not_mem]
          simp
        have hne : z ≠ y := ne_of_mem_path called next entered
        exact ⟨outcome', u, run', by rw [memo_leave, Grid.getElem?_insert, if_neg hne, hy]⟩
    | operand =>
      cases run with
      | first run | operandFails run | operatorFails run _ => exact ih next run
      | step run _ runEarlier =>
        obtain ⟨outcome', u, run', hy⟩ := ih next run
        exact ⟨outcome', u, run', runEarlier.kept (run.memo_settled placed.settled) id hy⟩
    | earlier run₁ hop =>
      cases run with
      | operandFails run' => cases (run₁.deterministic run').1
      | operatorFails _ hop' => cases hop.symm.trans hop'
      | step run' _ runEarlier =>
        obtain ⟨-, rfl⟩ := run₁.deterministic run'
        exact ih next runEarlier
    | reference hc =>
      cases run with
      | unknown hc' | literal hc' | misplaced hc' => cases hc.symm.trans hc'
      | reference hc' run =>
        cases hc.symm.trans hc'
        exact ih next run
    | nested hz hcell hmem =>
      cases run with
      | undefined hz' => cases hz.symm.trans hz'
      | settled hz' hseen =>
        cases hz.symm.trans hz'
        rw [hcell] at hseen
        cases hseen
      | circular _ _ hmem' => exact absurd hmem' hmem
      | nested hz' hcell' _ run =>
        cases hz.symm.trans hz'
        cases hcell.symm.trans hcell'
        exact ih next run

/-- What is called for on the way is the evaluation of an expression cell that the first expression
reaches. -/
lemma reached (called : Called raw p s y e) (placed : Placed raw start e₀ p.1 p.2)
    (other : start ≠ y) :
    Holds raw y e ∧ ∃ w, Mentions e₀ w ∧ ReflTransGen (References raw) w y := by
  have leads := (placed_of_callsFor called placed).leads.2
  obtain ⟨front, z, hpath, hz⟩ := leads.exists_last
  obtain ⟨-, e⟩ := List.append_inj' hpath rfl
  obtain rfl : y = z := List.singleton_inj.1 e
  exact hz.resolve_left (Ne.symm other)

end Called

end TableCalc.Evaluation
