import TableCalc.Proofs.Evaluation.Justification

/-!
# The evaluations of a run

`Evaluates raw s task log` says which cells are evaluated in the course of work on `task` from `s`,
in the order in which their evaluations begin; a cell that is evaluated twice stands in the log
twice. There is one such log (`Evaluates.deterministic`).

A run that begins with an expression cell without a result is `Fresh` throughout: it evaluates
nothing but expression cells without a result that are not under evaluation already. So its log has
no repetitions, the cells of the log are exactly those that get a result, and the counters go up by
the evaluations and failures in the log (`Runs.exists_evaluates`). No result is replaced, which
makes for an induction over the results of a run (`Fresh.memo_induction`): what every single result
keeps true of the memo is true in the end.
-/

namespace TableCalc

/-- Whether the cell is an error. -/
def Cell.isError : Cell → Bool
  | .error _ => true
  | _ => false

/-- Whether the grid has an error at this place. -/
def Grid.holdsError (g : Grid) (z : Address) : Bool := g[z]?.any Cell.isError

/-- An error has a message. -/
lemma Grid.holdsError_iff {g : Grid} {z : Address} :
    g.holdsError z = true ↔ ∃ message, g[z]? = some (.error message) := by
  unfold Grid.holdsError
  rcases g[z]? with _ | cell
  · simp
  · cases cell <;> simp [Cell.isError]

/-- Whether there is an error at an address depends on the cell there alone. -/
lemma Grid.holdsError_congr {g g' : Grid} {z : Address} (h : g[z]? = g'[z]?) :
    g.holdsError z = g'.holdsError z := by
  rw [holdsError, holdsError, h]

namespace Evaluation
open Expression

/-- `Evaluates raw s task log`: work on `task` from `s` evaluates the cells of `log`, in this order.
-/
inductive Evaluates (raw : Grid) : Evaluation → Task → List Address → Prop where
  | cell {s z expression log} :
    Evaluates raw (s.enter z) (.fold (tokenize expression).reverse) log →
    Evaluates raw s (.cell z expression) (z :: log)
  | unfinished {s} :
    Evaluates raw s (.fold []) []
  | first {s lexeme log} :
    Evaluates raw s (.operand lexeme) log →
    Evaluates raw s (.fold [lexeme]) log
  | operandFails {s t last symbol earlier e log} :
    Evaluates raw s (.operand last) log →
    Runs raw s (.operand last) (.error e) t →
    Evaluates raw s (.fold (last :: symbol :: earlier)) log
  | operatorFails {s last symbol earlier e log} :
    Evaluates raw s (.operand last) log →
    operator symbol = .error e →
    Evaluates raw s (.fold (last :: symbol :: earlier)) log
  | step {s t last symbol earlier rhs op log log'} :
    Evaluates raw s (.operand last) log →
    Runs raw s (.operand last) (.ok rhs) t →
    operator symbol = .ok op →
    Evaluates raw t (.fold earlier) log' →
    Evaluates raw s (.fold (last :: symbol :: earlier)) (log ++ log')
  | other {s lexeme} :
    (∀ z, Token.classify lexeme ≠ .ok (.reference z)) →
    Evaluates raw s (.operand lexeme) []
  | reference {s lexeme z log} :
    Token.classify lexeme = .ok (.reference z) →
    Evaluates raw s (.reference z) log →
    Evaluates raw s (.operand lexeme) log
  | known {s z} :
    (∀ given source, raw[z]? = some given → s.memo[z]?.getD given = .expression source →
      z ∈ s.trail.path) →
    Evaluates raw s (.reference z) []
  | nested {s z given source log} :
    raw[z]? = some given →
    s.memo[z]?.getD given = .expression source →
    z ∉ s.trail.path →
    Evaluates raw s (.cell z (normalize source)) log →
    Evaluates raw s (.reference z) log

variable {raw : Grid} {start : Address} {e₀ : String}

/-- There is one log of an evaluation at most. -/
theorem Evaluates.deterministic {s task log log'} (h : Evaluates raw s task log)
    (h' : Evaluates raw s task log') :
    log = log' := by
  induction h generalizing log' with
  | cell _ ih =>
    cases h' with
    | cell h' => rw [ih h']
  | unfinished =>
    cases h'
    rfl
  | first _ ih =>
    cases h' with
    | first h' => exact ih h'
  | operandFails _ run ih =>
    cases h' with
    | operandFails h' _ => exact ih h'
    | operatorFails h' _ => exact ih h'
    | step _ run' _ _ => cases (run.deterministic run').1
  | operatorFails _ hop ih =>
    cases h' with
    | operandFails h' _ => exact ih h'
    | operatorFails h' _ => exact ih h'
    | step _ _ hop' _ => cases hop.symm.trans hop'
  | step _ run hop _ ih ihEarlier =>
    cases h' with
    | operandFails _ run' => cases (run.deterministic run').1
    | operatorFails _ hop' => cases hop.symm.trans hop'
    | step h' run' _ hEarlier' =>
      obtain ⟨-, rfl⟩ := run.deterministic run'
      rw [ih h', ihEarlier hEarlier']
  | other hc =>
    cases h' with
    | other _ => rfl
    | reference hc' _ => exact absurd hc' (hc _)
  | reference hc _ ih =>
    cases h' with
    | other hc' => exact absurd hc (hc' _)
    | reference hc' h' =>
      cases hc.symm.trans hc'
      exact ih h'
  | known hknown =>
    cases h' with
    | known _ => rfl
    | nested hz hcell hmem _ => exact absurd (hknown _ _ hz hcell) hmem
  | nested hz hcell hmem _ ih =>
    cases h' with
    | known hknown => exact absurd (hknown _ _ hz hcell) hmem
    | nested hz' hcell' _ h' =>
      cases hz.symm.trans hz'
      cases hcell.symm.trans hcell'
      exact ih h'

/-- A cell whose evaluation is the task has no result yet. -/
def Task.Unset (memo : Grid) : Task → Prop
  | .cell z _ => z ∉ memo
  | .fold _ | .operand _ | .reference _ => True

/-- The invariant of a run that began with the evaluation of an expression cell without a result. -/
structure Fresh (raw : Grid) (start : Address) (e₀ : String) (s : Evaluation) (task : Task) : Prop
    extends Placed raw start e₀ s task where
  own : Holds raw start e₀
  recorded : Recorded raw s.memo
  unset : task.Unset s.memo

namespace Fresh

/-- The invariant is true of an expression that has no result yet. -/
lemma initial {s z e} (ready : Ready raw s) (hz : Holds raw z e) (unset : z ∉ s.memo) :
    Fresh raw z e s (.cell z e) :=
  ⟨.initial ready.settled ready.trail, hz, ready.recorded, unset⟩

/-- What comes of such a task is justified. -/
lemma justified {s task outcome t} (h : Fresh raw start e₀ s task)
    (run : Runs raw s task outcome t) :
    Justified raw task outcome :=
  (run.justified h.own h.toPlaced h.recorded).1

/-- A cell under evaluation holds the expression that it is evaluated with. -/
lemma holdsCell {s z e} (h : Fresh raw start e₀ s (.cell z e)) : Holds raw z e :=
  h.toPlaced.holds h.own

/-- The invariant passes from a cell to its lexemes. -/
lemma fold {s z e} (h : Fresh raw start e₀ s (.cell z e)) :
    Fresh raw start e₀ (s.enter z) (.fold (tokenize e).reverse) :=
  ⟨h.toPlaced.fold, h.own, h.recorded, trivial⟩

/-- The invariant passes from some lexemes to the last of them. -/
lemma operand {s last earlier} (h : Fresh raw start e₀ s (.fold (last :: earlier))) :
    Fresh raw start e₀ s (.operand last) :=
  ⟨h.toPlaced.operand, h.own, h.recorded, trivial⟩

/-- The invariant passes from the last of some lexemes to those before it. -/
lemma earlier {s t last symbol earlier outcome}
    (h : Fresh raw start e₀ s (.fold (last :: symbol :: earlier)))
    (run : Runs raw s (.operand last) outcome t) : Fresh raw start e₀ t (.fold earlier) :=
  ⟨h.toPlaced.earlier run, h.own, (run.justified h.own h.toPlaced.operand h.recorded).2, trivial⟩

/-- The invariant passes from an operand to the cell that it refers to. -/
lemma reference {s lexeme z} (h : Fresh raw start e₀ s (.operand lexeme))
    (hc : Token.classify lexeme = .ok (.reference z)) : Fresh raw start e₀ s (.reference z) :=
  ⟨h.toPlaced.reference hc, h.own, h.recorded, trivial⟩

/-- The invariant passes from a reference to the evaluation that it calls for. -/
lemma nested {s z given source} (h : Fresh raw start e₀ s (.reference z))
    (hz : raw[z]? = some given)
    (hcell : s.memo[z]?.getD given = .expression source) (hmem : z ∉ s.trail.path) :
    Fresh raw start e₀ s (.cell z (normalize source)) := by
  obtain ⟨hmemo, -⟩ := h.toPlaced.fresh hcell
  refine ⟨h.toPlaced.nested hz hcell hmem, h.own, h.recorded, ?_⟩
  rw [Task.Unset, ← Grid.isSome_getElem?_iff_mem, hmemo]
  simp

end Fresh

/-- The evaluation `t` goes on from `s` by evaluations of the cells of `log`, one of each. -/
structure Extends (raw : Grid) (s : Evaluation) (log : List Address) (t : Evaluation) : Prop where
  nodup : log.Nodup
  unset : ∀ z ∈ log, z ∉ s.memo
  off_trail : ∀ z ∈ log, z ∉ s.trail.path
  holds : ∀ z ∈ log, ∃ e, Holds raw z e
  mem_iff : ∀ z, z ∈ t.memo ↔ z ∈ s.memo ∨ z ∈ log
  kept : ∀ z ∈ s.memo, t.memo[z]? = s.memo[z]?
  trail_eq : t.trail = s.trail
  evaluations : t.evaluations = s.evaluations + log.length
  failures : t.failures = s.failures + log.countP t.memo.holdsError

namespace Extends

/-- Without any evaluation nothing is added. -/
lemma refl {s : Evaluation} : Extends raw s [] s := by
  constructor <;> simp

/-- What two evaluations add one after the other is what their logs say together. -/
lemma trans {s t u : Evaluation} {log log' : List Address} (h : Extends raw s log t)
    (h' : Extends raw t log' u) :
    Extends raw s (log ++ log') u where
  nodup := by
    refine List.nodup_append.2 ⟨h.nodup, h'.nodup, ?_⟩
    rintro z hz _ hz' rfl
    exact h'.unset z hz' ((h.mem_iff z).2 (.inr hz))
  unset z hz hmem := by
    rcases List.mem_append.1 hz with hz | hz
    · exact h.unset z hz hmem
    · exact h'.unset z hz ((h.mem_iff z).2 (.inl hmem))
  off_trail z hz := by
    rcases List.mem_append.1 hz with hz | hz
    · exact h.off_trail z hz
    · exact h.trail_eq ▸ h'.off_trail z hz
  holds z hz := (List.mem_append.1 hz).elim (h.holds z) (h'.holds z)
  mem_iff z := by rw [h'.mem_iff, h.mem_iff, List.mem_append, or_assoc]
  kept z hz := (h'.kept z ((h.mem_iff z).2 (.inl hz))).trans (h.kept z hz)
  trail_eq := h'.trail_eq.trans h.trail_eq
  evaluations := by
    rw [h'.evaluations, h.evaluations, List.length_append]
    omega
  failures := by
    -- the failures of the first part are still there
    have same : log.countP t.memo.holdsError = log.countP u.memo.holdsError := by
      refine List.countP_congr fun z hz => ?_
      rw [Grid.holdsError_congr (h'.kept z ((h.mem_iff z).2 (.inr hz)))]
    rw [h'.failures, h.failures, List.countP_append, same]
    omega

/-- The evaluation of a cell puts the cell in front of the log of its expression. -/
lemma cell {s t : Evaluation} {z e log outcome} (h : Extends raw (s.enter z) log t)
    (hz : Holds raw z e)
    (unset : z ∉ s.memo) (hmem : z ∉ s.trail.path) :
    Extends raw s (z :: log) (t.leave z outcome) := by
  have path : (s.enter z).trail.path = s.trail.path ++ [z] := Trail.path_enter hmem
  have hlog : z ∉ log := fun hlog => h.off_trail z hlog (by rw [path]; simp)
  have other : ∀ y ∈ log, (t.memo.insert z (.ofOutcome outcome))[y]? = t.memo[y]? := by
    intro y hy
    rw [Grid.getElem?_insert, if_neg]
    rintro rfl
    exact hlog hy
  refine ⟨List.nodup_cons.2 ⟨hlog, h.nodup⟩, ?_, ?_, ?_, ?_, ?_, ?_, ?_, ?_⟩
  · exact List.forall_mem_cons.2 ⟨unset, h.unset⟩
  · refine List.forall_mem_cons.2 ⟨hmem, fun y hy => ?_⟩
    have := h.off_trail y hy
    simp only [path, List.mem_append, not_or] at this
    exact this.1
  · exact List.forall_mem_cons.2 ⟨⟨e, hz⟩, h.holds⟩
  · intro y
    rw [memo_leave, Grid.mem_insert, h.mem_iff, memo_enter, List.mem_cons]
    grind
  · intro y hy
    rw [memo_leave, Grid.getElem?_insert, if_neg]
    · exact h.kept y hy
    · rintro rfl
      exact unset hy
  · rw [trail_leave, h.trail_eq, trail_enter, Trail.leave_enter hmem]
  · show t.evaluations = _
    rw [h.evaluations, List.length_cons]
    simp only [enter]
    omega
  · have same : log.countP (Grid.holdsError (t.memo.insert z (.ofOutcome outcome))) =
        log.countP t.memo.holdsError :=
      List.countP_congr fun y hy => by rw [Grid.holdsError_congr (other y hy)]
    have entered : (s.enter z).failures = s.failures := rfl
    rw [memo_leave, List.countP_cons, same]
    cases outcome with
    | ok value => simp [leave, h.failures, entered, Grid.holdsError, Cell.ofOutcome, Cell.isError]
    | error e =>
      simp [leave, h.failures, entered, Grid.holdsError, Cell.ofOutcome, Cell.isError]; omega

end Extends

/-- A fresh run has a log, and what it adds to the evaluation is what the log says. -/
theorem Runs.exists_evaluates {s task outcome t} (run : Runs raw s task outcome t)
    (fresh : Fresh raw start e₀ s task) :
    ∃ log, Evaluates raw s task log ∧ Extends raw s log t := by
  induction run with
  | cell _ ih =>
    obtain ⟨log, evaluates, extending⟩ := ih fresh.fold
    exact ⟨_, .cell evaluates, extending.cell fresh.holdsCell fresh.unset fresh.not_mem⟩
  | unfinished => exact ⟨[], .unfinished, .refl⟩
  | first _ ih =>
    obtain ⟨log, evaluates, extending⟩ := ih fresh.operand
    exact ⟨log, .first evaluates, extending⟩
  | operandFails run ih =>
    obtain ⟨log, evaluates, extending⟩ := ih fresh.operand
    exact ⟨log, .operandFails evaluates run, extending⟩
  | operatorFails _ hop ih =>
    obtain ⟨log, evaluates, extending⟩ := ih fresh.operand
    exact ⟨log, .operatorFails evaluates hop, extending⟩
  | step run hop _ ih ihEarlier =>
    obtain ⟨log, evaluates, extending⟩ := ih fresh.operand
    obtain ⟨log', evaluates', extending'⟩ := ihEarlier (fresh.earlier run)
    exact ⟨_, .step evaluates run hop evaluates', extending.trans extending'⟩
  | unknown h => exact ⟨[], .other (by simp [h]), .refl⟩
  | literal h => exact ⟨[], .other (by simp [h]), .refl⟩
  | misplaced h => exact ⟨[], .other (by simp [h]), .refl⟩
  | reference h _ ih =>
    obtain ⟨log, evaluates, extending⟩ := ih (fresh.reference h)
    exact ⟨log, .reference h evaluates, extending⟩
  | undefined h => exact ⟨[], .known (by simp [h]), .refl⟩
  | settled h hseen =>
    refine ⟨[], .known fun given source h' hcell => ?_, .refl⟩
    cases h.symm.trans h'
    simp [hcell, Cell.seen?] at hseen
  | circular _ _ hmem => exact ⟨[], .known fun _ _ _ _ => hmem, .refl⟩
  | nested h hcell hmem _ ih =>
    obtain ⟨log, evaluates, extending⟩ := ih (fresh.nested h hcell hmem)
    exact ⟨log, .nested h hcell hmem evaluates, extending⟩

/-- While a cell is under evaluation it gets no result. -/
lemma Fresh.not_mem_memo {s z e outcome t} (h : Fresh raw start e₀ s (.cell z e))
    (run : Runs raw (s.enter z) (.fold (tokenize e).reverse) outcome t) : z ∉ t.memo := by
  obtain ⟨log, -, extending⟩ := run.exists_evaluates h.fold
  rw [extending.mem_iff]
  rintro (hmem | hmem)
  · exact h.unset hmem
  · refine extending.off_trail z hmem ?_
    rw [trail_enter, Trail.path_enter h.not_mem]
    simp

/-- The result of an evaluation leaves the results of the evaluations that it called for. -/
lemma Fresh.kept {s z e outcome t cell} {w : Address} (h : Fresh raw start e₀ s (.cell z e))
    (run : Runs raw (s.enter z) (.fold (tokenize e).reverse) outcome t)
    (hw : t.memo[w]? = some cell) :
    (t.memo.insert z (.ofOutcome outcome))[w]? = some cell := by
  rw [Grid.getElem?_insert, if_neg, hw]
  rintro rfl
  exact h.not_mem_memo run (Grid.isSome_getElem?_iff_mem.1 (by simp [hw]))

/-- What each result of a fresh run keeps true of the memo, the whole run keeps true. -/
theorem Fresh.memo_induction {P : Grid → Prop} {s task outcome t}
    (fresh : Fresh raw start e₀ s task) (run : Runs raw s task outcome t)
    (insert : ∀ {s z e outcome t}, Fresh raw start e₀ s (.cell z e) →
      Runs raw (s.enter z) (.fold (tokenize e).reverse) outcome t → P t.memo →
        P (t.memo.insert z (.ofOutcome outcome)))
    (h : P s.memo) : P t.memo := by
  induction run with
  | cell run ih => exact insert fresh run (ih fresh.fold h)
  | unfinished => exact h
  | first _ ih => exact ih fresh.operand h
  | operandFails _ ih => exact ih fresh.operand h
  | operatorFails _ _ ih => exact ih fresh.operand h
  | step run _ _ ih ihEarlier => exact ihEarlier (fresh.earlier run) (ih fresh.operand h)
  | unknown _ => exact h
  | literal _ => exact h
  | misplaced _ => exact h
  | reference hc _ ih => exact ih (fresh.reference hc) h
  | undefined _ => exact h
  | settled _ _ => exact h
  | circular _ _ _ => exact h
  | nested hz hcell hmem _ ih => exact ih (fresh.nested hz hcell hmem) h

end Evaluation

end TableCalc
