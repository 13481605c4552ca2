import Mathlib.Tactic.FinCases
import TableCalc.Proofs.Evaluation.Reach
import TableCalc.Proofs.Evaluation.SingleReference
import TableCalc.Proofs.Table.Solution

/-!
# Which cell of a cycle is reported

Where every expression refers to one cell at most, all cells of a cycle report the same one of them.
A pass evaluates in row-major order, so the first cell from which the cycle can be reached decides:
nothing on its way has a result then (`exists_run_of_firstEntry`), and the cell at which its way
enters the cycle is the one that the cycle is closed at (`reports_of_firstEntry`). All cells from
which the cycle can be reached and that are not on it pass on the error of the cell that they refer
to.
-/

namespace TableCalc.Table
open Evaluation Expression Relation

/-- Of the cells from which the cycle through `c` can be reached, `w` is the first one in row-major
order, and its way enters the cycle at `y`. -/
structure FirstEntry (raw : Grid) (c w y : Address) : Prop where
  reaches : ReflTransGen (References raw) w c
  least : ∀ v, ReflTransGen (References raw) v c → (compare w v).isLE = true
  meets : Meets raw (OnCycle raw c) w y

variable {raw : Grid} {t : Table} {c : Address}

/-- A cell that leads to a cycle is listed among the expressions. -/
lemma mem_expressions_of_reaches {v} (path : ReflTransGen (References raw) v c)
    (cycle : TransGen (References raw) c c) : ∃ source, (v, source) ∈ raw.expressions := by
  obtain ⟨_, source, hsource, -⟩ := holds_of_reaches path cycle
  exact ⟨source, Grid.mem_expressions.2 hsource⟩

/-- There is a first entry to every cycle. -/
lemma exists_firstEntry (cycle : TransGen (References raw) c c) : ∃ w y, FirstEntry raw c w y := by
  classical
  have listed : ∀ v, ReflTransGen (References raw) v c → v ∈ raw.expressions.map Prod.fst :=
    fun v path => by
    obtain ⟨source, hmem⟩ := mem_expressions_of_reaches path cycle
    exact List.mem_map.2 ⟨(v, source), hmem, rfl⟩
  have found :
      ((raw.expressions.map Prod.fst).find? fun v => ReflTransGen (References raw) v c).isSome := by
    rw [List.find?_isSome]
    exact ⟨c, listed c .refl, decide_eq_true .refl⟩
  obtain ⟨w, hw⟩ := Option.isSome_iff_exists.1 found
  obtain ⟨hreaches, before, after, split, hbefore⟩ := List.find?_eq_some_iff_append.1 hw
  have reaches : ReflTransGen (References raw) w c := of_decide_eq_true hreaches
  obtain ⟨y, meets⟩ := exists_meets reaches (OnCycle.self cycle)
  refine ⟨w, y, reaches, fun v path => ?_, meets⟩
  have sorted := raw.pairwise_expressions
  rw [split, List.pairwise_append, List.pairwise_cons] at sorted
  have hv := listed v path
  rw [split, List.mem_append, List.mem_cons] at hv
  rcases hv with hv | rfl | hv
  · simpa [path] using hbefore v hv
  · simp
  · rw [sorted.2.1.1 v hv]
    rfl

/-- When a pass comes to the first cell from which the cycle can be reached, no such cell has a
result, and it evaluates that first cell. -/
lemma exists_run_of_firstEntry {w y} (entry : FirstEntry raw c w y)
    (cycle : TransGen (References raw) c c) :
    ∃ s e outcome u, Ready raw s ∧ Holds raw w e ∧ Runs raw s (.cell w e) outcome u ∧
      (∀ v, ReflTransGen (References raw) v c → v ∉ s.memo) ∧
      ∀ v ∈ u.memo, (computeAll raw).memo[v]? = u.memo[v]? := by
  obtain ⟨source, hmem⟩ := mem_expressions_of_reaches entry.reaches cycle
  obtain ⟨before, after, split⟩ := List.append_of_mem hmem
  obtain ⟨ready, kept⟩ := computeAll_of_split split
  have earlier : ∀ e ∈ before, ¬ ReflTransGen (References raw) e.1 c := by
    intro e he path
    have sorted := raw.pairwise_expressions
    rw [split, List.map_append, List.map_cons, List.pairwise_append] at sorted
    have before_w := sorted.2.2 e.1 (List.mem_map_of_mem he) w List.mem_cons_self
    have := entry.least e.1 path
    rw [Std.OrientedCmp.gt_of_lt before_w] at this
    cases this
  have own : ∀ e ∈ before, raw[e.1]? = some (.expression e.2) := fun e he =>
    Grid.mem_expressions.1 (split ▸ List.mem_append_left _ he)
  -- the evaluations before do not reach the cycle, and leave alone what does
  have unset : ∀ v, ReflTransGen (References raw) v c →
      v ∉ (before.foldl (computeNext raw) { memo := raw.plain }).memo := by
    intro v path
    refine foldl_computeNext_induction (P := fun s => v ∉ s.memo) ?_ own ready_plain ?_
    · intro s z source outcome t hmem ready _ run hs
      have apart : ¬ (Task.cell z (normalize source)).Reaches raw v := fun reaches =>
        earlier _ hmem ((reaches.cell (.of_eq (own _ hmem))).trans path)
      rwa [← Grid.isSome_getElem?_iff_mem, run.getElem?_of_not_reaches ready.settled apart,
        Grid.isSome_getElem?_iff_mem]
    · obtain ⟨e, he⟩ := holds_of_reaches path cycle
      rw [← Grid.isSome_getElem?_iff_mem, getElem?_plain_of_holds he]
      exact Bool.false_ne_true
  obtain ⟨outcome, run⟩ := runs_computeNext (unset w entry.reaches)
  exact ⟨_, _, outcome, _, ready, .of_eq (Grid.mem_expressions.1 hmem), run, unset, kept⟩

/-- All cells of the cycle report the same one of them. -/
lemma exists_reports_of_cycle (single : t.raw.SingleReference)
    (cycle : TransGen (References t.raw) c c) :
    ∃ y, OnCycle t.raw c y ∧ ∀ x, OnCycle t.raw c x → ReportsCircular t.compute.2.computed x y := by
  have around : TransGen (Blames t.raw) c c := single.blames_of_reaches cycle .refl cycle
  obtain ⟨y, reports, forth, back⟩ := reports_of_blames_self around
  refine ⟨y, ⟨Blames.reaches forth, Blames.reaches back⟩, fun x hx => ?_⟩
  exact reports_of_blames reports
    (single.blames_of_reaches hx.1 hx.2.to_reflTransGen cycle).to_reflTransGen

/-- The cell at which the cycle is entered reports itself. -/
lemma reports_of_firstEntry {w y} (single : t.raw.SingleReference)
    (cycle : TransGen (References t.raw) c c)
    (entry : FirstEntry t.raw c w y) : ReportsCircular t.compute.2.computed y y := by
  obtain ⟨s, e, outcome, u, ready, hw, run, unset, kept⟩ := exists_run_of_firstEntry entry cycle
  have fresh : Fresh t.raw w e s (.cell w e) := .initial ready hw (unset w entry.reaches)
  have off : ∀ v ∈ s.trail.path, ¬ OnCycle t.raw c v := by
    rw [ready.trail]
    exact nofun
  obtain ⟨s', e', outcome', t', runEntry, freshEntry, offEntry, same⟩ :=
    run.exists_entry single cycle entry.meets fresh unset off
  -- what the evaluation of the entry ends in is what the pass has for it
  have stored : u.memo[y]? = some (.ofOutcome outcome') := same.trans runEntry.getElem?_cell
  have computed : t.compute.2.computed[y]? = some (.ofOutcome outcome') := by
    rw [← stored, computed_compute]
    refine kept y (Grid.isSome_getElem?_iff_mem.1 ?_)
    rw [stored]
    rfl
  obtain ⟨y', hy', reports⟩ := exists_reports_of_cycle single cycle
  have circular : outcome' = .error (.circularReference y') :=
    Cell.ofOutcome_injective
      (Option.some.inj (computed.symm.trans (reports y entry.meets.property)))
  -- of the cells under evaluation then, only the entry lies on the cycle
  obtain ⟨origin, -⟩ := runEntry.circular_origin freshEntry circular
  rcases List.mem_append.1 origin with origin | origin
  · exact absurd hy' (offEntry y' origin)
  · rw [List.mem_singleton.1 origin] at reports
    exact reports y entry.meets.property

/-- Off the cycle, a cell from which it can be reached passes the error of the next cell on. -/
lemma passesOn_of_reaches {x s} (single : t.raw.SingleReference)
    (cycle : TransGen (References t.raw) c c)
    (edge : References t.raw x s) (path : ReflTransGen (References t.raw) s c)
    (off : ¬ OnCycle t.raw c x) :
    PassesOn t.compute.2.computed x s := by
  refine (passesOn_or_reports (single.blames edge path cycle)).resolve_right ?_
  rintro ⟨y, reports⟩
  obtain ⟨e, hx, -⟩ := id edge
  obtain ⟨forth, back⟩ := cycle_of_reports hx reports
  exact off (single.onCycle_of_reaches (.head edge path) (forth.trans back))

/-- Let every expression have one lexeme of the shape of a reference at most, and terms and
operators alternate in it, and let `c` lie on a cycle. There is a first cell from which the cycle
can be reached, and a cell at which its way enters the cycle. The latter is reported as circular by
all cells of the cycle, and all other cells from which the cycle can be reached pass on the error of
the one cell that they refer to. -/
theorem computed_of_singleReference (t : Table) (single : t.raw.SingleReference) (c : Address)
    (cycle : TransGen (References t.raw) c c) :
    (∃ w y, FirstEntry t.raw c w y) ∧
    ∀ w y : Address, FirstEntry t.raw c w y →
      (∀ x, OnCycle t.raw c x →
        t.compute.2.computed[x]? = some (.error (EvalError.circularReference y).message)) ∧
      ∀ x, ReflTransGen (References t.raw) x c → ¬ OnCycle t.raw c x →
        ∃ s, (∀ z, References t.raw x z ↔ z = s) ∧
          t.compute.2.computed[x]? = some (.error (EvalError.propagated s).message) := by
  refine ⟨exists_firstEntry cycle, fun w y entry => ⟨fun x hx => ?_, fun x path off => ?_⟩⟩
  · have reports := reports_of_firstEntry single cycle entry
    have onward : TransGen (References t.raw) y x := TransGen.trans entry.meets.property.2 hx.1
    have blames := single.blames_of_reaches onward hx.2.to_reflTransGen cycle
    exact reports_of_blames reports blames.to_reflTransGen
  · obtain ⟨s, edge, rest⟩ := exists_references_of_reaches path cycle
    refine ⟨s, fun z => ⟨fun edge' => single.references_unique edge' edge, ?_⟩,
      passesOn_of_reaches single cycle edge rest off⟩
    rintro rfl
    exact edge

/-- A row with a cycle of its second and its third cell. The first cell leads to the third one, and
the last one to the first. -/
def loopRow : Table where
  width := 4
  height := 1
  raw := (∅ : Grid).insert ⟨0, 0⟩ (.expression "2*c1")
    |>.insert ⟨0, 1⟩ (.expression "C1")
    |>.insert ⟨0, 2⟩ (.expression "B1")
    |>.insert ⟨0, 3⟩ (.expression "A1")

/-- The expressions of the row. -/
lemma holds_loopRow {x e} : Holds loopRow.raw x e ↔
    (x, e) ∈ [((⟨0, 0⟩ : Address), "2*C1"), (⟨0, 1⟩, "C1"), (⟨0, 2⟩, "B1"), (⟨0, 3⟩, "A1")] := by
  have all : loopRow.raw.expressions.map (fun entry => (entry.1, Expression.normalize entry.2)) =
      [((⟨0, 0⟩ : Address), "2*C1"), (⟨0, 1⟩, "C1"), (⟨0, 2⟩, "B1"), (⟨0, 3⟩, "A1")] := by
    decide +kernel
  simp only [← all, List.mem_map, Prod.mk.injEq, Prod.exists, Grid.mem_expressions]
  constructor
  · rintro ⟨source, hsource, rfl⟩
    exact ⟨x, source, hsource, rfl, rfl⟩
  · rintro ⟨_, source, hsource, rfl, rfl⟩
    exact .of_eq hsource

/-- The references of the row. -/
lemma references_loopRow {x z} : References loopRow.raw x z ↔
    (x, z) ∈ [((⟨0, 0⟩ : Address), (⟨0, 2⟩ : Address)), (⟨0, 1⟩, ⟨0, 2⟩), (⟨0, 2⟩, ⟨0, 1⟩),
      (⟨0, 3⟩, ⟨0, 0⟩)] := by
  have scaled : tokenize "2*C1" = ["2", "*", "C1"] := by decide
  constructor
  · rintro ⟨e, hx, lexeme, hmem, hc⟩
    have hx := holds_loopRow.1 hx
    fin_cases hx
    · rw [scaled] at hmem
      fin_cases hmem <;> cases hc
      decide
    all_goals
      fin_cases hmem
      cases hc
      decide
  · intro h
    fin_cases h
    · exact ⟨"2*C1", holds_loopRow.2 (by simp), "C1", by decide, rfl⟩
    · exact ⟨"C1", holds_loopRow.2 (by simp), "C1", by decide, rfl⟩
    · exact ⟨"B1", holds_loopRow.2 (by simp), "B1", by decide, rfl⟩
    · exact ⟨"A1", holds_loopRow.2 (by simp), "A1", by decide, rfl⟩

/-- Each expression of the row has one reference. -/
lemma singleReference_loopRow : loopRow.raw.SingleReference := by
  have scaled : tokenize "2*C1" = ["2", "*", "C1"] := by decide
  refine ⟨fun x e hx => ?_, fun x e z hx _ => ?_⟩
  · have hx := holds_loopRow.1 hx
    fin_cases hx <;> decide
  · have hx := holds_loopRow.1 hx
    fin_cases hx
    · rw [scaled]
      exact @Alternating.step ["2"] "*" "C1" .mul (.term (.inl ⟨_, rfl⟩)) rfl (.inr ⟨_, rfl⟩)
    all_goals exact .term (.inr ⟨_, rfl⟩)

/-- The second and the third cell are on the cycle. -/
lemma onCycle_loopRow {x} : OnCycle loopRow.raw ⟨0, 1⟩ x ↔ x = ⟨0, 1⟩ ∨ x = ⟨0, 2⟩ := by
  have second : References loopRow.raw ⟨0, 1⟩ ⟨0, 2⟩ := references_loopRow.2 (by simp)
  have third : References loopRow.raw ⟨0, 2⟩ ⟨0, 1⟩ := references_loopRow.2 (by simp)
  constructor
  · rintro ⟨forth, -⟩
    induction forth with
    | single edge => exact .inr (by simpa using references_loopRow.1 edge)
    | tail _ edge ih =>
      rcases ih with rfl | rfl
      · exact .inr (by simpa using references_loopRow.1 edge)
      · exact .inl (by simpa using references_loopRow.1 edge)
  · rintro (rfl | rfl)
    · exact .self (.head second (.single third))
    · exact ⟨.single second, .single third⟩

/-- The cycle is entered from the first cell. -/
lemma firstEntry_loopRow : FirstEntry loopRow.raw ⟨0, 1⟩ ⟨0, 0⟩ ⟨0, 2⟩ := by
  have first : References loopRow.raw ⟨0, 0⟩ ⟨0, 2⟩ := references_loopRow.2 (by simp)
  have third : References loopRow.raw ⟨0, 2⟩ ⟨0, 1⟩ := references_loopRow.2 (by simp)
  have off : ¬ OnCycle loopRow.raw ⟨0, 1⟩ ⟨0, 0⟩ := by
    rw [onCycle_loopRow]
    decide
  refine ⟨.head first (.single third), fun v path => ?_,
    .next off first (.here (onCycle_loopRow.2 (.inr rfl)))⟩
  obtain ⟨e, hv⟩ := holds_of_reaches path (onCycle_loopRow.2 (.inl rfl)).1
  have hv := holds_loopRow.1 hv
  fin_cases hv <;> decide

/-- In the row, the second cell reports the third one, and the last cell passes the error of the
first one on. -/
theorem computed_of_singleReference_loopRow :
    loopRow.raw.SingleReference ∧ TransGen (References loopRow.raw) ⟨0, 1⟩ ⟨0, 1⟩ ∧
    FirstEntry loopRow.raw ⟨0, 1⟩ ⟨0, 0⟩ ⟨0, 2⟩ ∧
    loopRow.compute.2.computed[(⟨0, 1⟩ : Address)]? =
      some (.error "Circular reference in cell C1") ∧
    loopRow.compute.2.computed[(⟨0, 3⟩ : Address)]? =
      some (.error "Expression error in cell A1") := by
  have first : References loopRow.raw ⟨0, 0⟩ ⟨0, 2⟩ := references_loopRow.2 (by simp)
  have third : References loopRow.raw ⟨0, 2⟩ ⟨0, 1⟩ := references_loopRow.2 (by simp)
  have last : References loopRow.raw ⟨0, 3⟩ ⟨0, 0⟩ := references_loopRow.2 (by simp)
  have cycle : TransGen (References loopRow.raw) ⟨0, 1⟩ ⟨0, 1⟩ := (onCycle_loopRow.2 (.inl rfl)).1
  have off : ¬ OnCycle loopRow.raw ⟨0, 1⟩ ⟨0, 3⟩ := by
    rw [onCycle_loopRow]
    decide
  have circular : (EvalError.circularReference ⟨0, 2⟩).message =
      "Circular reference in cell C1" := by decide +kernel
  have passed : (EvalError.propagated ⟨0, 0⟩).message = "Expression error in cell A1" := by
    decide +kernel
  obtain ⟨reports, passesOn⟩ :=
    (computed_of_singleReference loopRow singleReference_loopRow ⟨0, 1⟩ cycle).2 _ _
      firstEntry_loopRow
  refine ⟨singleReference_loopRow, cycle, firstEntry_loopRow, circular ▸ reports _ (.self cycle),
    ?_⟩
  obtain ⟨s, unique, hcell⟩ := passesOn ⟨0, 3⟩ (.head last (.head first (.single third))) off
  rwa [← (unique _).1 last, passed] at hcell

end TableCalc.Table
