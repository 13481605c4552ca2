import TableCalc.Proofs.Evaluation.Reach
import TableCalc.Proofs.Table.Tally

/-!
# The ceiling of references

A reference has one digit, so it names a cell in one of the first nine rows
(`Token.row_lt_of_classify`). Cells further down are computed like all others, but no expression
reads them, and nothing else depends on them either (`computed_congr_of_row`). For a pass goes row
by row: when it comes to such a cell, every cell that references can lead to has a result already,
and the evaluation of the cell changes nothing but its own result (`computeNext_agreeOn_self`). A
pass with the cell and a pass without it therefore agree at every step.
-/

namespace TableCalc
open Evaluation Expression Relation

/-- A reference names a cell in one of the first nine rows. -/
lemma Token.row_lt_of_classify {lexeme : String} {z} (hc : classify lexeme = .ok (.reference z)) :
    z.row < 9 := by
  obtain ⟨letter, digit, chars, -, isDigit⟩ := (isReferenceShape_of_classify hc).exists_chars
  have named : Address.ofChars? lexeme.toList = some z := by
    revert hc
    fun_cases classify lexeme <;> rintro ⟨⟩
    assumption
  have zero : '0'.toNat = 48 := rfl
  have nine : '9'.toNat = 57 := rfl
  have bounds := Char.isDigit_iff_toNat.1 isDigit
  simp only [chars, Address.ofChars?, Option.bind_eq_bind, Option.bind_eq_some_iff] at named
  obtain ⟨col, -, n, hn, hz⟩ := named
  obtain ⟨-, value, -⟩ := Text.numeralBelow?_eq_some_iff.1 hn
  cases n with
  | zero => cases hz
  | succ row =>
    cases hz
    simp only [Nat.ofDigitChars, List.foldl_cons, List.foldl_nil] at value
    show row < 9
    omega

namespace Grid

/-- The grid without the cell at `z`. -/
def without (g : Grid) (z : Address) : Grid := g.filter fun y _ => y ≠ z

/-- Nothing but this cell is gone. -/
lemma getElem?_without {g : Grid} {z y : Address} :
    (g.without z)[y]? = if y = z then none else g[y]? := by
  rw [without, Grid.getElem?_filter]
  cases g[y]? <;> by_cases h : y = z <;> simp [h]

/-- The other expressions are listed in the order that they had. -/
lemma expressions_without {g : Grid} {z : Address} :
    (g.without z).expressions = g.expressions.filter fun entry => entry.1 ≠ z := by
  unfold expressions without
  rw [toList_filter]
  unfold sources
  rw [List.filterMap_filter, List.filter_filterMap]
  refine List.filterMap_congr fun entry _ => ?_
  cases entry.cell.source? <;> by_cases h : entry.address = z <;> simp [Option.filter, h]

/-- Grids that differ in one cell are the same without it. -/
lemma without_congr {g g' : Grid} {z : Address} (h : ∀ y, y ≠ z → g'[y]? = g[y]?) :
    g'.without z = g.without z := by
  refine Grid.ext_getElem? fun y => ?_
  rw [getElem?_without, getElem?_without]
  split
  case isTrue => rfl
  case isFalse hy => exact h y hy

end Grid

namespace Table

variable {raw raw' : Grid} {z : Address}

/-- References lead to no cell below the ceiling. -/
lemma row_lt_of_references {x y} (edge : References raw x y) : y.row < 9 := by
  obtain ⟨_, -, _, -, hc⟩ := edge
  exact Token.row_lt_of_classify hc

/-- References from the first nine rows stay there. -/
lemma row_lt_of_reaches {x y} (hx : x.row < 9) (path : ReflTransGen (References raw) x y) :
    y.row < 9 := by
  rcases path.cases_tail with rfl | ⟨_, -, edge⟩
  · exact hx
  · exact row_lt_of_references edge

/-- A cell leads to itself and to cells in the first nine rows. -/
lemma row_lt_of_cell_reaches {x e y} (h : (Task.cell x e).Reaches raw y) : y = x ∨ y.row < 9 := by
  rcases h with rfl | ⟨w, ⟨_, -, hc⟩, path⟩
  · exact .inl rfl
  · exact .inr (row_lt_of_reaches (Token.row_lt_of_classify hc) path)

/-- The evaluation of a cell changes nothing else if all cells that references can lead to have
results. -/
lemma computeNext_agreeOn_self {s source} (ready : Ready raw s)
    (hz : raw[z]? = some (.expression source))
    (complete : ∀ y e, Holds raw y e → y.row < 9 → y ∈ s.memo) :
    AgreeOn (· ≠ z) s (computeNext raw s (z, source)) := by
  by_cases hmem : z ∈ s.memo
  · rw [computeNext_of_mem hmem]
    exact ⟨rfl, fun _ _ => rfl⟩
  · obtain ⟨outcome, run⟩ := runs_computeNext hmem
    obtain ⟨log, -, extending⟩ := run.exists_evaluates (.initial ready (.of_eq hz) hmem)
    refine ⟨extending.trail_eq, fun y hy => ?_⟩
    by_cases hset : y ∈ s.memo
    · exact extending.kept y hset
    by_cases reaches : (Task.cell z (normalize source)).Reaches raw y
    · -- a cell without a result that is reached holds no expression, and gets none
      have low : y.row < 9 := (row_lt_of_cell_reaches reaches).resolve_left hy
      have unlogged : y ∉ log := fun hlog =>
        have ⟨e, he⟩ := extending.holds y hlog
        hset (complete y e he low)
      have unset : y ∉ (computeNext raw s (z, source)).memo := by
        simp [extending.mem_iff, hset, unlogged]
      rw [Grid.getElem?_eq_none unset, Grid.getElem?_eq_none hset]
    · exact run.getElem?_of_not_reaches ready.settled reaches

/-- Grids that agree off `z` lead to the same result for another cell. -/
lemma computeNext_agreeOn (low : 9 ≤ z.row) (agree : ∀ y, y ≠ z → raw'[y]? = raw[y]?)
    {s s' y source} (hy : y ≠ z) (ready : Ready raw s) (same : AgreeOn (· ≠ z) s s') :
    AgreeOn (· ≠ z) (computeNext raw s (y, source)) (computeNext raw' s' (y, source)) := by
  have mem_iff : y ∈ s'.memo ↔ y ∈ s.memo := by
    rw [← Grid.isSome_getElem?_iff_mem, ← Grid.isSome_getElem?_iff_mem, same.memo y hy]
  by_cases hmem : y ∈ s.memo
  · rw [computeNext_of_mem hmem, computeNext_of_mem (mem_iff.2 hmem)]
    exact same
  · obtain ⟨outcome, run⟩ : ∃ outcome, Runs raw s (.cell y (normalize source)) outcome _ :=
      runs_computeNext hmem
    obtain ⟨outcome', run'⟩ : ∃ outcome, Runs raw' s' (.cell y (normalize source)) outcome _ :=
      runs_computeNext (mt mem_iff.1 hmem)
    have within : ∀ w, (Task.cell y (normalize source)).Reaches raw w → w ≠ z := by
      intro w reaches hw
      rcases row_lt_of_cell_reaches reaches with rfl | high
      · exact hy hw
      · rw [hw] at high
        omega
    obtain ⟨t', again, same'⟩ := run.congr agree ready.settled within same
    obtain ⟨-, rfl⟩ := run'.deterministic again
    exact same'

/-- What comes earlier in row-major order is no further down. -/
lemma row_le_of_compare {a b : Address} (h : compare a b = .lt) : a.row ≤ b.row := by
  rcases Ordering.then_eq_lt.1 h with h | ⟨h, -⟩
  · exact Nat.le_of_lt (Nat.compare_eq_lt.1 h)
  · exact Nat.le_of_eq (Nat.compare_eq_eq.1 h)

/-- A pass that leaves the cell at `z` out agrees with one that does not. -/
lemma foldl_computeNext_agreeOn (low : 9 ≤ z.row) (agree : ∀ y, y ≠ z → raw'[y]? = raw[y]?)
    {entries : List (Address × String)} {s s'} (ready : Ready raw s)
    (hentries : ∀ entry ∈ entries, raw[entry.1]? = some (.expression entry.2))
    (ordered : (entries.map Prod.fst).Pairwise fun a b => compare a b = .lt)
    (complete : ∀ y e, Holds raw y e → y.row < 9 → y ∈ s.memo ∨ y ∈ entries.map Prod.fst)
    (same : AgreeOn (· ≠ z) s s') :
    AgreeOn (· ≠ z) (entries.foldl (computeNext raw) s)
      ((entries.filter fun entry => entry.1 ≠ z).foldl (computeNext raw') s') := by
  induction entries generalizing s s' with
  | nil => exact same
  | cons entry entries ih =>
    obtain ⟨y, source⟩ := entry
    obtain ⟨hy, hentries⟩ := List.forall_mem_cons.1 hentries
    obtain ⟨before, ordered⟩ := List.pairwise_cons.1 ordered
    obtain ⟨ready', hmem, kept⟩ := computeNext_ready ready hy
    have complete' : ∀ w e, Holds raw w e → w.row < 9 →
        w ∈ (computeNext raw s (y, source)).memo ∨ w ∈ entries.map Prod.fst := by
      intro w e hw high
      rcases complete w e hw high with h | h
      · exact .inl (kept w h)
      · rcases List.mem_cons.1 h with rfl | h
        · exact .inl hmem
        · exact .inr h
    by_cases hyz : y = z
    · subst hyz
      -- the entries that are left lie below the ceiling as well
      have settled : ∀ w e, Holds raw w e → w.row < 9 → w ∈ s.memo := by
        intro w e hw high
        refine (complete w e hw high).resolve_right fun h => ?_
        rcases List.mem_cons.1 h with rfl | h
        · exact absurd high (by omega)
        · have below : y.row ≤ w.row := row_le_of_compare (before w h)
          omega
      have changed := computeNext_agreeOn_self ready hy settled
      rw [List.filter_cons_of_neg (by simp)]
      exact ih ready' hentries ordered complete' (changed.symm.trans same)
    · rw [List.filter_cons_of_pos (by simp [hyz])]
      exact ih ready' hentries ordered complete' (computeNext_agreeOn low agree hyz ready same)

/-- A pass has the same results without the cell, but for the cell itself. -/
lemma computeAll_without (raw : Grid) (low : 9 ≤ z.row) :
    AgreeOn (· ≠ z) (computeAll raw) (computeAll (raw.without z)) := by
  rw [computeAll, computeAll, Grid.expressions_without]
  refine foldl_computeNext_agreeOn low (fun y hy => by rw [Grid.getElem?_without, if_neg hy])
    ready_plain
    (fun entry => Grid.mem_expressions.1) Grid.pairwise_expressions ?_ ⟨rfl, fun y hy => ?_⟩
  · rintro y e ⟨source, hy, -⟩ -
    exact .inr (Grid.mem_expressions_map_fst.2 ⟨source, hy⟩)
  · rw [Grid.getElem?_plain, Grid.getElem?_plain, Grid.getElem?_without, if_neg hy]

/-- Two tables that differ only in a cell below the ninth row compute the same everywhere else. -/
theorem computed_congr_of_row (t t' : Table) (z : Address) (low : 9 ≤ z.row)
    (agree : ∀ y, y ≠ z → t'.raw[y]? = t.raw[y]?) :
    ∀ y, y ≠ z → t'.compute.2.computed[y]? = t.compute.2.computed[y]? := by
  intro y hy
  have left := (computeAll_without t.raw low).memo y hy
  have right := (computeAll_without t'.raw low).memo y hy
  rw [Grid.without_congr agree] at right
  rw [computed_compute, computed_compute]
  exact right.symm.trans left

/-- A column whose first two cells refer to each other, and whose tenth cell refers to both. -/
def deepColumn : Table where
  width := 1
  height := 10
  raw := (∅ : Grid).insert ⟨0, 0⟩ (.expression "a2")
    |>.insert ⟨1, 0⟩ (.expression "a1+7")
    |>.insert ⟨9, 0⟩ (.expression "a1+a2")

/-- The column with nothing in the tenth row. -/
def shallowColumn : Table := { deepColumn with raw := deepColumn.raw.without ⟨9, 0⟩ }

/-- The cycle in the first rows reports the same with the tenth cell and without it. -/
theorem computed_congr_of_row_deepColumn :
    9 ≤ (⟨9, 0⟩ : Address).row ∧
      (∀ y : Address, y ≠ ⟨9, 0⟩ → shallowColumn.raw[y]? = deepColumn.raw[y]?) ∧
    deepColumn.compute.2.computed[(⟨1, 0⟩ : Address)]? =
      some (.error "Circular reference in cell A1") ∧
    shallowColumn.compute.2.computed[(⟨1, 0⟩ : Address)]? =
      deepColumn.compute.2.computed[(⟨1, 0⟩ : Address)]? := by
  have low : 9 ≤ (⟨9, 0⟩ : Address).row := by decide
  have agree : ∀ y : Address, y ≠ ⟨9, 0⟩ → shallowColumn.raw[y]? = deepColumn.raw[y]? := by
    intro y hy
    rw [shallowColumn, Grid.getElem?_without, if_neg hy]
  exact ⟨low, agree, by decide +kernel,
    computed_congr_of_row deepColumn shallowColumn _ low agree _ (by decide)⟩

end Table

end TableCalc
