import TableCalc.Proofs.Evaluation.Adequacy
import TableCalc.Proofs.Evaluation.Justification
import TableCalc.Table

/-!
# The pass over a table

A pass evaluates the expression cells one after another, and leaves out those that have a result
already. In the end each of them has a justified outcome (`Table.exists_computed`): a result once
stored stays, and the evaluator is ready before every step.
-/

namespace TableCalc
open Evaluation Expression

variable {raw : Grid}

namespace Table

/-- The evaluation of all expressions of a raw grid, in row-major order and on top of its plain
cells. -/
def computeAll (raw : Grid) : Evaluation :=
  raw.expressions.foldl (computeNext raw) { memo := raw.plain }

/-- The cells of a list that are copied are the plain ones among them. -/
lemma foldl_copyNext {entries : List Entry} {g : Grid} {n : Nat} :
    entries.foldl copyNext (g, n) =
      (g.insertAll (entries.filter fun entry => !entry.cell.isExpression),
        n + entries.countP fun entry => !entry.cell.isExpression) := by
  induction entries generalizing g n with
  | nil => rfl
  | cons entry entries ih =>
    rw [List.foldl_cons, copyNext]
    cases h : entry.cell.isExpression with
    | true => simp [h, ih]
    | false =>
      rw [if_neg (by simp), ih, List.filter_cons_of_pos (by simp [h]),
        List.countP_cons_of_pos (by simp [h]), Nat.add_assoc, Nat.add_comm 1]
      rfl

/-- A pass copies the plain cells. -/
lemma foldl_copyNext_toList : raw.toList.foldl copyNext (∅, 0) = (raw.plain, raw.plain.size) := by
  have plain : (raw.toList.filter fun entry => !entry.cell.isExpression) = raw.plain.toList :=
    Eq.symm <| by rw [Grid.plain, Grid.toList_filter]
  rw [foldl_copyNext, plain, Grid.insertAll_toList, Grid.size_plain, Nat.zero_add]

/-- The cells of a list that are visited are the expressions among them. -/
lemma foldl_visitNext (entries : List Entry) (s : Evaluation) (n : Nat) :
    entries.foldl (visitNext raw) (s, n) =
      ((Grid.sources entries).foldl (computeNext raw) s, n + (Grid.sources entries).length) := by
  induction entries generalizing s n with
  | nil => rfl
  | cons entry entries ih =>
    rw [List.foldl_cons, visitNext]
    cases h : entry.cell.source? with
    | none =>
      have rest : Grid.sources (entry :: entries) = Grid.sources entries :=
        List.filterMap_cons_none (by simp [h])
      rw [rest]
      exact ih s n
    | some source =>
      have rest : Grid.sources (entry :: entries) =
          (entry.address, source) :: Grid.sources entries :=
        List.filterMap_cons_some (by simp [h])
      refine (ih (computeNext raw s (entry.address, source)) (n + 1)).trans ?_
      rw [rest, List.foldl_cons, List.length_cons, Nat.add_assoc, Nat.add_comm 1]

/-- What a pass computes and counts, in terms of the plain cells and the expressions. -/
lemma compute_eq (t : Table) :
    t.compute =
      ({ copied := t.raw.plain.size
         expressions := t.raw.expressions.length
         evaluations := (computeAll t.raw).evaluations
         errors := (computeAll t.raw).failures },
        { t with computed := (computeAll t.raw).memo }) := by
  unfold compute
  simp only [foldl_copyNext_toList, foldl_visitNext, Nat.zero_add]
  rfl

/-- The results of a pass. -/
lemma computed_compute (t : Table) : t.compute.2.computed = (computeAll t.raw).memo := by
  rw [compute_eq]

/-- The evaluator is ready when the plain cells are copied. -/
lemma ready_plain : Ready raw { memo := raw.plain } := ⟨rfl, Grid.settled_plain, recorded_plain⟩

/-- An expression with a result is left out. -/
lemma computeNext_of_mem {s z source} (hmem : z ∈ s.memo) : computeNext raw s (z, source) = s :=
  if_pos hmem

/-- An expression without a result is evaluated. -/
lemma runs_computeNext {s z source} (unset : z ∉ s.memo) :
    ∃ outcome, Runs raw s (.cell z (normalize source)) outcome (computeNext raw s (z, source)) := by
  obtain ⟨outcome, t, run, same⟩ := exists_runs_evaluateAndStore raw s z (normalize source)
  refine ⟨outcome, ?_⟩
  rwa [computeNext, if_neg unset, same]

/-- A step of the pass gives its cell a result and takes no result away. -/
lemma computeNext_ready {s z source} (ready : Ready raw s)
    (hz : raw[z]? = some (.expression source)) :
    Ready raw (computeNext raw s (z, source)) ∧ z ∈ (computeNext raw s (z, source)).memo ∧
      ∀ y ∈ s.memo, y ∈ (computeNext raw s (z, source)).memo := by
  by_cases hmem : z ∈ s.memo
  · rw [computeNext_of_mem hmem]
    exact ⟨ready, hmem, fun _ hy => hy⟩
  · obtain ⟨outcome, run⟩ := runs_computeNext hmem
    refine ⟨(ready.next (.of_eq hz) run).2, ?_, fun _ hy => run.mem_memo hy⟩
    rw [← Grid.isSome_getElem?_iff_mem, run.getElem?_cell]
    rfl

/-- Steps of a pass keep the evaluator ready, and after them each entry has a result. -/
lemma foldl_computeNext_ready {entries : List (Address × String)} {s} (ready : Ready raw s)
    (hentries : ∀ entry ∈ entries, raw[entry.1]? = some (.expression entry.2)) :
    Ready raw (entries.foldl (computeNext raw) s) ∧
      ∀ y, (y ∈ s.memo ∨ ∃ entry ∈ entries, entry.1 = y) →
        y ∈ (entries.foldl (computeNext raw) s).memo := by
  induction entries generalizing s with
  | nil => exact ⟨ready, fun y hy => by simpa using hy⟩
  | cons entry entries ih =>
    obtain ⟨ready', hmem, kept⟩ := computeNext_ready ready (hentries entry (by simp))
    obtain ⟨ready'', all⟩ := ih ready' fun other hother => hentries other (by simp [hother])
    refine ⟨ready'', fun y hy => all y ?_⟩
    rcases hy with hy | ⟨other, hother, rfl⟩
    · exact .inl (kept y hy)
    · rcases List.mem_cons.1 hother with rfl | hother
      · exact .inl hmem
      · exact .inr ⟨other, hother, rfl⟩

/-- After a pass the evaluator is ready, and every expression cell has a result. -/
lemma computeAll_ready (raw : Grid) :
    Ready raw (computeAll raw) ∧ ∀ z e, Holds raw z e → z ∈ (computeAll raw).memo := by
  obtain ⟨ready', all⟩ := foldl_computeNext_ready ready_plain fun entry hentry =>
    Grid.mem_expressions.1 hentry
  refine ⟨ready', ?_⟩
  rintro z e ⟨source, hz, -⟩
  exact all z (.inr ⟨(z, source), Grid.mem_expressions.2 hz, rfl⟩)

/-- The evaluator is ready for an evaluation on top of the results of a pass. -/
lemma ready_compute (t : Table) : Ready t.raw { memo := t.compute.2.computed } := by
  rw [computed_compute]
  obtain ⟨-, settled, recorded⟩ := (computeAll_ready t.raw).1
  exact ⟨rfl, settled, recorded⟩

/-- What the evaluation of an entry without a result keeps true, a pass over the entries keeps true.
-/
lemma foldl_computeNext_induction {P : Evaluation → Prop} {entries : List (Address × String)} {s}
    (step : ∀ {s z source outcome t}, (z, source) ∈ entries → Ready raw s → z ∉ s.memo →
      Runs raw s (.cell z (normalize source)) outcome t → P s → P t)
    (hentries : ∀ entry ∈ entries, raw[entry.1]? = some (.expression entry.2)) (ready : Ready raw s)
    (h : P s) :
    P (entries.foldl (computeNext raw) s) := by
  induction entries generalizing s with
  | nil => exact h
  | cons entry entries ih =>
    have hz := hentries entry (by simp)
    refine ih (fun hmem => step (List.mem_cons_of_mem _ hmem))
      (fun other hother => hentries other (by simp [hother]))
      (computeNext_ready ready hz).1 ?_
    by_cases hmem : entry.1 ∈ s.memo
    · rwa [computeNext_of_mem hmem]
    · obtain ⟨outcome, run⟩ := runs_computeNext hmem
      exact step List.mem_cons_self ready hmem run h

/-- What the evaluation of a cell without a result keeps true, a pass keeps true. -/
theorem computeAll_induction {P : Evaluation → Prop} (init : P { memo := raw.plain })
    (step : ∀ {s z e outcome t}, Ready raw s → Holds raw z e → z ∉ s.memo →
      Runs raw s (.cell z e) outcome t → P s →
      P t) : P (computeAll raw) :=
  foldl_computeNext_induction (fun hmem ready => step ready (.of_eq (Grid.mem_expressions.1 hmem)))
    (fun _ hentry => Grid.mem_expressions.1 hentry) ready_plain init

/-- After a pass, every expression cell holds a justified outcome of its expression. -/
theorem exists_computed {t : Table} {z e} (hz : Holds t.raw z e) :
    ∃ outcome, Justified t.raw (.cell z e) outcome ∧
      t.compute.2.computed[z]? = some (.ofOutcome outcome) := by
  obtain ⟨ready, all⟩ := computeAll_ready t.raw
  rw [computed_compute]
  obtain ⟨cell, hcell⟩ := Option.isSome_iff_exists.1 (Grid.isSome_getElem?_iff_mem.2 (all z e hz))
  obtain ⟨outcome, justified, rfl⟩ := ready.recorded.expression z e cell hz hcell
  exact ⟨outcome, justified, hcell⟩

end Table

end TableCalc
