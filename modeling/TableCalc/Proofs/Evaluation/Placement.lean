import TableCalc.Proofs.Evaluation.References
import TableCalc.Proofs.Evaluation.Rules

/-!
# Where the evaluator stands

`Placed raw start e s task` is the invariant of a run that began with the evaluation of `e` for
`start` on an empty trail: the memo holds no expressions, the trail has no repetitions, and the
trail leads from the beginning of the run to the expression that `task` belongs to. There is a lemma
for each step from a task to a task that it calls for (`Placed.fold`, `Placed.operand`,
`Placed.earlier`, `Placed.reference`, `Placed.nested`); an induction over a run carries the
invariant along by these.

Two things follow for a reference whose content is an expression. It is not in the memo yet
(`Placed.fresh`), and if its cell is on the trail, the cell lies on a cycle of the reference graph
(`Placed.reaches_self`).
-/

namespace TableCalc

/-- No cell of the grid is an expression. -/
def Grid.Settled (g : Grid) : Prop := ∀ (z : Address) (source : String),
    g[z]? ≠ some (.expression source)

/-- An outcome is no expression, so it may be stored. -/
lemma Grid.Settled.insert {g : Grid} {z outcome} (h : g.Settled) :
    Grid.Settled (g.insert z (.ofOutcome outcome)) := by
  intro y source
  rw [Grid.getElem?_insert]
  split
  · cases outcome <;> simp [Cell.ofOutcome]
  · exact h y source

/-- An expression that counts as the content of a cell is its raw content, and the cell has no
result yet. -/
lemma Grid.Settled.fresh {memo : Grid} (h : memo.Settled) {z : Address} {given source}
    (hcell : memo[z]?.getD given = .expression source) :
    memo[z]? = none ∧ given = .expression source := by
  cases hmemo : memo[z]? with
  | none => exact ⟨rfl, by simpa [hmemo] using hcell⟩
  | some cell =>
    -- a settled memo would have to hold the expression
    simp only [hmemo, Option.getD_some] at hcell
    exact absurd (hcell ▸ hmemo) (h z source)

/-- An empty grid has no expression. -/
lemma Grid.settled_empty : Grid.Settled ∅ := by
  intro z source
  simp

/-- Plain cells are no expressions. -/
lemma Grid.settled_plain {raw : Grid} : raw.plain.Settled := by
  intro z source h
  rw [Grid.getElem?_plain, Option.filter_eq_some_iff] at h
  simp [Cell.isExpression, Cell.source?] at h

namespace Evaluation
open Expression Relation

variable {raw : Grid} {start : Address} {e₀ : String}

/-- What a run adds to the memo are numbers and errors. -/
lemma Runs.memo_settled {s task outcome t} (run : Runs raw s task outcome t) (h : s.memo.Settled) :
    t.memo.Settled :=
  run.memo_invariant Grid.Settled (fun _ _ _ h => h.insert) h

/-- The path leads from the evaluation of `e₀` for `start` to the task. -/
def Task.LeadTo (raw : Grid) (start : Address) (e₀ : String) (path : List Address) : Task → Prop
  | .cell z e => z ∉ path ∧ Leads raw start e₀ (path ++ [z]) e
  | .fold lexemes => ∃ e, Leads raw start e₀ path e ∧ ∀ lexeme ∈ lexemes, lexeme ∈ tokenize e
  | .operand lexeme => ∃ e, Leads raw start e₀ path e ∧ lexeme ∈ tokenize e
  | .reference z => ∃ e, Leads raw start e₀ path e ∧ Mentions e z

/-- The invariant of a run that began with the evaluation of `e₀` for `start`. -/
structure Placed (raw : Grid) (start : Address) (e₀ : String) (s : Evaluation) (task : Task) :
    Prop where
  settled : s.memo.Settled
  nodup : s.trail.path.Nodup
  leads : task.LeadTo raw start e₀ s.trail.path

namespace Placed

/-- The invariant is true when nothing is under evaluation yet. -/
lemma initial {s : Evaluation} (settled : s.memo.Settled) (h : s.trail = .empty) :
    Placed raw start e₀ s (.cell start e₀) := by
  refine ⟨settled, ?_, ?_⟩
  · simp [h, Trail.empty]
  · exact ⟨by simp [h, Trail.empty], by rw [h]; exact .start⟩

/-- A cell is not evaluated while it is under evaluation. -/
lemma not_mem {s z e} (h : Placed raw start e₀ s (.cell z e)) : z ∉ s.trail.path := h.leads.1

/-- No cell comes twice on the path to an evaluation. -/
lemma nodup_enter {s z e} (h : Placed raw start e₀ s (.cell z e)) :
    (s.trail.enter z).2.path.Nodup := by
  rw [Trail.path_enter h.not_mem, List.nodup_append]
  refine ⟨h.nodup, by simp, ?_⟩
  rintro y hy _ hz rfl
  exact h.not_mem (List.mem_singleton.1 hz ▸ hy)

/-- The path to an evaluation goes from one reference to the next. -/
lemma leads_enter {s z e} (h : Placed raw start e₀ s (.cell z e)) :
    Leads raw start e₀ (s.trail.enter z).2.path e := by
  rw [Trail.path_enter h.not_mem]
  exact h.leads.2

/-- A cell under evaluation holds the expression it is evaluated with, if that is so of the first
one. -/
lemma holds {s z e} (h : Placed raw start e₀ s (.cell z e)) (own : Holds raw start e₀) :
    Holds raw z e :=
  h.leads.2.holds_last own

/-- The invariant passes from a cell to its lexemes. -/
lemma fold {s z e} (h : Placed raw start e₀ s (.cell z e)) :
    Placed raw start e₀ (s.enter z) (.fold (tokenize e).reverse) :=
  ⟨h.settled, h.nodup_enter, e, h.leads_enter, fun _ hmem => List.mem_reverse.1 hmem⟩

/-- The invariant passes from some lexemes to the last of them. -/
lemma operand {s last earlier} (h : Placed raw start e₀ s (.fold (last :: earlier))) :
    Placed raw start e₀ s (.operand last) := by
  obtain ⟨e, leads, hmem⟩ := h.leads
  exact ⟨h.settled, h.nodup, e, leads, hmem last (by simp)⟩

/-- After the run of the last operand, the trail is the same again. -/
lemma earlier {s t last symbol earlier outcome}
    (h : Placed raw start e₀ s (.fold (last :: symbol :: earlier)))
    (run : Runs raw s (.operand last) outcome t) : Placed raw start e₀ t (.fold earlier) := by
  obtain ⟨e, leads, hmem⟩ := h.leads
  have htrail : t.trail = s.trail := run.trail_eq trivial
  refine ⟨run.memo_settled h.settled, htrail ▸ h.nodup, e, htrail ▸ leads, ?_⟩
  intro lexeme hlexeme
  exact hmem lexeme (by simp [hlexeme])

/-- The invariant passes from an operand to the cell that it refers to. -/
lemma reference {s lexeme z} (h : Placed raw start e₀ s (.operand lexeme))
    (hc : Token.classify lexeme = .ok (.reference z)) : Placed raw start e₀ s (.reference z) := by
  obtain ⟨e, leads, hmem⟩ := h.leads
  exact ⟨h.settled, h.nodup, e, leads, lexeme, hmem, hc⟩

/-- If an expression is found for a cell, it is the raw one, as no expression is ever stored. -/
lemma fresh {s z given source} (h : Placed raw start e₀ s (.reference z))
    (hcell : s.memo[z]?.getD given = .expression source) :
    s.memo[z]? = none ∧ given = .expression source :=
  h.settled.fresh hcell

/-- The invariant passes from a reference to the evaluation that it calls for. -/
lemma nested {s z given source} (h : Placed raw start e₀ s (.reference z))
    (hz : raw[z]? = some given)
    (hcell : s.memo[z]?.getD given = .expression source) (hmem : z ∉ s.trail.path) :
    Placed raw start e₀ s (.cell z (normalize source)) := by
  obtain ⟨e, leads, mentions⟩ := h.leads
  obtain ⟨-, rfl⟩ := h.fresh hcell
  exact ⟨h.settled, h.nodup, hmem, leads.on mentions (.of_eq hz)⟩

/-- A reference back to the trail closes a cycle. -/
lemma reaches_self {s z} (h : Placed raw start e₀ s (.reference z)) (own : Holds raw start e₀)
    (hmem : z ∈ s.trail.path) : TransGen (References raw) z z := by
  obtain ⟨e, leads, mentions⟩ := h.leads
  exact leads.reaches own mentions z hmem

end Placed

end Evaluation

end TableCalc
