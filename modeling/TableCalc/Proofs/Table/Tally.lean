import TableCalc.Proofs.Evaluation.Log
import TableCalc.Proofs.Table.Pass

/-!
# What a pass counts

A pass evaluates each expression cell exactly once, whether in its turn or because another cell
refers to it, and whether or not it fails. `PassEvaluates raw s entries log` says which cells are
evaluated in the course of a pass over `entries`, those in their turn together with those that they
call for; there is one such log (`PassEvaluates.deterministic`). What a pass adds to the results is
what the log says (`exists_passEvaluates`), and the tally follows from that.
-/

namespace TableCalc

open Evaluation Expression

namespace Table

/-- `PassEvaluates raw s entries log`: a pass over the entries from `s` evaluates the cells of
`log`, in this order. -/
inductive PassEvaluates (raw : Grid) : Evaluation → List (Address × String) → List Address →
    Prop where
  | done {s} :
    PassEvaluates raw s [] []
  | skip {s z source entries log} :
    z ∈ s.memo →
    PassEvaluates raw s entries log →
    PassEvaluates raw s ((z, source) :: entries) log
  | evaluate {s z source entries log log'} :
    z ∉ s.memo →
    Evaluates raw s (.cell z (normalize source)) log →
    PassEvaluates raw (computeNext raw s (z, source)) entries log' →
    PassEvaluates raw s ((z, source) :: entries) (log ++ log')

variable {raw : Grid}

/-- A pass has one log at most. -/
lemma PassEvaluates.deterministic {s entries log log'} (h : PassEvaluates raw s entries log)
    (h' : PassEvaluates raw s entries log') : log = log' := by
  induction h generalizing log' with
  | done =>
    cases h'
    rfl
  | skip hmem _ ih =>
    cases h' with
    | skip _ h' => exact ih h'
    | evaluate unset _ _ => exact absurd hmem unset
  | evaluate unset evaluates _ ih =>
    cases h' with
    | skip hmem _ => exact absurd hmem unset
    | evaluate _ evaluates' h' => rw [evaluates.deterministic evaluates', ih h']

/-- A pass has a log, and what it adds to the evaluation is what the log says. -/
lemma exists_passEvaluates {entries : List (Address × String)} {s} (ready : Ready raw s)
    (hentries : ∀ entry ∈ entries, raw[entry.1]? = some (.expression entry.2)) :
    ∃ log, PassEvaluates raw s entries log ∧
      Extends raw s log (entries.foldl (computeNext raw) s) := by
  induction entries generalizing s with
  | nil => exact ⟨[], .done, .refl⟩
  | cons entry entries ih =>
    obtain ⟨z, source⟩ := entry
    have hz : Holds raw z (normalize source) := .of_eq (hentries (z, source) (by simp))
    obtain ⟨ready', -⟩ := computeNext_ready ready (hentries (z, source) (by simp))
    obtain ⟨log', passEvaluates, extending'⟩ := ih ready' fun other hother =>
      hentries other (by simp [hother])
    rw [List.foldl_cons]
    by_cases hmem : z ∈ s.memo
    · rw [computeNext_of_mem hmem] at passEvaluates extending'
      rw [computeNext_of_mem hmem]
      exact ⟨log', .skip hmem passEvaluates, extending'⟩
    · obtain ⟨outcome, run⟩ := runs_computeNext hmem
      obtain ⟨log, evaluates, extending⟩ := run.exists_evaluates (.initial ready hz hmem)
      exact ⟨log ++ log', .evaluate hmem evaluates passEvaluates, extending.trans extending'⟩

/-- The results that a pass has before an entry and after it, when it comes to the entry. -/
lemma computeAll_of_split {before after : List (Address × String)} {z source}
    (split : raw.expressions = before ++ (z, source) :: after) :
    Ready raw (before.foldl (computeNext raw) { memo := raw.plain }) ∧
      ∀ y ∈ (computeNext raw (before.foldl (computeNext raw) { memo := raw.plain })
        (z, source)).memo,
        (computeAll raw).memo[y]? =
          (computeNext raw (before.foldl (computeNext raw) { memo := raw.plain })
            (z, source)).memo[y]? := by
  have own : ∀ entry ∈ before ++ (z, source) :: after, raw[entry.1]? = some (.expression entry.2) :=
    fun _ hentry =>
    Grid.mem_expressions.1 (split ▸ hentry)
  obtain ⟨ready, -⟩ := foldl_computeNext_ready ready_plain fun entry hentry =>
    own entry (List.mem_append_left _ hentry)
  obtain ⟨ready', -⟩ := computeNext_ready ready (own (z, source) (by simp))
  obtain ⟨log, -, extending⟩ := exists_passEvaluates ready' fun entry hentry =>
    own entry (List.mem_append_right _ (List.mem_cons_of_mem _ hentry))
  refine ⟨ready, fun y hy => ?_⟩
  rw [computeAll, split, List.foldl_append, List.foldl_cons]
  exact extending.kept y hy

/-- The log of a pass over a raw grid has every expression cell once. -/
lemma exists_log_computeAll (raw : Grid) :
    ∃ log, PassEvaluates raw { memo := raw.plain } raw.expressions log ∧
      Extends raw { memo := raw.plain } log (computeAll raw) ∧
        log.Perm (raw.expressions.map Prod.fst) := by
  obtain ⟨log, passEvaluates, extending⟩ :=
    exists_passEvaluates ready_plain fun _ hentry => Grid.mem_expressions.1 hentry
  refine ⟨log, passEvaluates, extending,
    (List.perm_ext_iff_of_nodup extending.nodup Grid.nodup_expressions).2 ?_⟩
  intro z
  refine ⟨fun hz => ?_, fun hz => ?_⟩
  · obtain ⟨e, source, hsource, -⟩ := extending.holds z hz
    exact List.mem_map.2 ⟨(z, source), Grid.mem_expressions.2 hsource, rfl⟩
  · obtain ⟨⟨z, source⟩, hentry, rfl⟩ := List.mem_map.1 hz
    have hsource := Grid.mem_expressions.1 hentry
    -- the cell has a result in the end, and it is not plain
    have hmem : z ∈ (computeAll raw).memo := (computeAll_ready raw).2 z _ (.of_eq hsource)
    refine ((extending.mem_iff z).1 hmem).resolve_left fun hplain => ?_
    obtain ⟨cell, hcell, plain⟩ := Grid.mem_plain.1 hplain
    cases hsource.symm.trans hcell
    simp [Cell.isExpression, Cell.source?] at plain

/-- A pass computes the cells that are there. -/
lemma mem_computed {t : Table} {z : Address} : z ∈ t.compute.2.computed ↔ z ∈ t.raw := by
  obtain ⟨log, -, extending, perm⟩ := exists_log_computeAll t.raw
  rw [computed_compute, extending.mem_iff, perm.mem_iff, Grid.mem_expressions_map_fst,
    Grid.mem_plain, ← Grid.isSome_getElem?_iff_mem]
  cases t.raw[z]? with
  | none => simp
  | some cell => cases cell <;> simp [Cell.isExpression, Cell.source?]

/-- A pass leaves plain cells as they are. -/
lemma getElem?_computed_of_plain {t : Table} {z : Address} {cell : Cell}
    (hz : t.raw[z]? = some cell)
    (plain : cell.isExpression = false) : t.compute.2.computed[z]? = some cell := by
  obtain ⟨log, -, extending, -⟩ := exists_log_computeAll t.raw
  rw [computed_compute, extending.kept z (Grid.mem_plain.2 ⟨cell, hz, plain⟩)]
  simp [Grid.getElem?_plain, hz, plain]

/-- The tally of a pass in terms of the places of the expressions and the computed errors. -/
lemma tally_compute_expressions (t : Table) :
    t.compute.1 =
      { copied := t.raw.plain.size
        expressions := (t.raw.expressions.map Prod.fst).length
        evaluations := (t.raw.expressions.map Prod.fst).length
        errors := (t.raw.expressions.map Prod.fst).countP t.compute.2.computed.holdsError } := by
  obtain ⟨log, -, extending, perm⟩ := exists_log_computeAll t.raw
  have evaluations : (computeAll t.raw).evaluations = (t.raw.expressions.map Prod.fst).length := by
    rw [extending.evaluations, perm.length_eq, Nat.zero_add]
  have failures : (computeAll t.raw).failures =
      (t.raw.expressions.map Prod.fst).countP t.compute.2.computed.holdsError := by
    rw [extending.failures, perm.countP_eq, Nat.zero_add, computed_compute]
  rw [← failures, ← evaluations, compute_eq]
  simp only [evaluations, List.length_map]

/-- The tally of a pass in terms of the raw grid and the computed errors. -/
lemma tally_compute (t : Table) :
    t.compute.1 =
      { copied := t.raw.toList.countP fun entry => !entry.cell.isExpression
        expressions := t.raw.toList.countP fun entry => entry.cell.isExpression
        evaluations := t.raw.toList.countP fun entry => entry.cell.isExpression
        errors := t.raw.toList.countP fun entry =>
          entry.cell.isExpression && t.compute.2.computed.holdsError entry.address } := by
  have errors : (t.raw.expressions.map Prod.fst).countP t.compute.2.computed.holdsError =
      t.raw.toList.countP fun entry =>
        entry.cell.isExpression && t.compute.2.computed.holdsError entry.address := by
    rw [Grid.expressions_map_fst, List.countP_map, List.countP_filter]
    exact List.countP_congr fun entry _ => by simp [and_comm]
  rw [tally_compute_expressions, errors, List.length_map, Grid.size_plain, Grid.length_expressions]

/-- A pass leaves exactly the raw cells computed, plain cells as they are, and evaluates every
expression cell once; its tally counts the cells of the raw grid. -/
theorem compute_evaluates_once (t : Table) :
    (∀ z, z ∈ t.compute.2.computed ↔ z ∈ t.raw) ∧
    (∀ (z : Address) (cell : Cell), t.raw[z]? = some cell → cell.isExpression = false →
      t.compute.2.computed[z]? = some cell) ∧
    (∃ log,
      (∀ log', PassEvaluates t.raw { memo := t.raw.plain } t.raw.expressions log' ↔ log' = log) ∧
      (∀ (z : Address) (source : String), t.raw[z]? = some (.expression source) → log.count z = 1) ∧
      ∀ z ∈ log, ∃ source, t.raw[z]? = some (.expression source)) ∧
    t.compute.1 =
      { copied := t.raw.toList.countP fun entry => !entry.cell.isExpression
        expressions := t.raw.toList.countP fun entry => entry.cell.isExpression
        evaluations := t.raw.toList.countP fun entry => entry.cell.isExpression
        errors := t.raw.toList.countP fun entry =>
          entry.cell.isExpression && t.compute.2.computed.holdsError entry.address } ∧
    t.compute.1.copied + t.compute.1.expressions = t.compute.2.computed.size := by
  obtain ⟨log, passEvaluates, extending, perm⟩ := exists_log_computeAll t.raw
  have mem_log : ∀ z, z ∈ log ↔ ∃ source, t.raw[z]? = some (.expression source) := fun z =>
    perm.mem_iff.trans Grid.mem_expressions_map_fst
  refine ⟨fun _ => mem_computed, fun _ _ => getElem?_computed_of_plain,
    ⟨log, ?_, ?_, fun z hz => (mem_log z).1 hz⟩,
    tally_compute t, ?_⟩
  · exact fun log' => ⟨fun h => h.deterministic passEvaluates, fun h => h ▸ passEvaluates⟩
  · intro z source hz
    exact List.count_eq_one_of_mem extending.nodup ((mem_log z).2 ⟨source, hz⟩)
  · rw [Grid.size_congr fun _ => mem_computed, Grid.size_eq_add, tally_compute]

end Table

end TableCalc
