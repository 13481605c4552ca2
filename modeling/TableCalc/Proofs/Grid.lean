import Mathlib.Data.List.Nodup
import TableCalc.Grid

/-!
# Cells of a grid

What is kept in a grid is known by its cells alone (`Grid.ext_getElem?`), for the address of an
entry is the one that it is found under. So a grid is looked up, listed and counted by addresses and
cells, and no proof about tables has to look at the entries again. The plain cells of a grid and its
expressions are what a pass goes through.
-/

namespace TableCalc.Grid

variable {g g' : Grid} {z a : Address} {cell : Cell}

/-- What is kept at an address is the cell that is found there, with this address. -/
theorem getElem?_entries : g.entries[z]? = g[z]?.map (.mk z) := by
  show g.entries[z]? = (g.entries[z]?.map Entry.cell).map (.mk z)
  cases hz : g.entries[z]? with
  | none => rfl
  | some entry =>
    rw [← g.addressed z entry hz]
    rfl

/-- Two grids with the same cells are equal. -/
theorem ext_getElem? (h : ∀ z : Address, g[z]? = g'[z]?) : g = g' := by
  have entries : g.entries = g'.entries := by
    refine Std.ExtTreeMap.ext_getElem? fun z => ?_
    rw [getElem?_entries, getElem?_entries, h]
  cases g
  cases g'
  cases entries
  rfl

/-- There is a cell at an address of the grid. -/
lemma isSome_getElem?_iff_mem : (g[z]?).isSome ↔ z ∈ g := by
  have found : (g.entries[z]?).isSome ↔ z ∈ g := Std.ExtTreeMap.isSome_getElem?_iff_mem
  rwa [getElem?_entries, Option.isSome_map] at found

/-- There is no cell at any other address. -/
lemma getElem?_eq_none (h : z ∉ g) : g[z]? = none :=
  Option.not_isSome_iff_eq_none.1 (mt isSome_getElem?_iff_mem.1 h)

/-- The empty grid has no cell. -/
@[simp] lemma getElem?_empty : (∅ : Grid)[z]? = none := rfl

/-- An inserted cell is found at its address, and all others where they were. -/
@[simp] lemma getElem?_insert : (g.insert z cell)[a]? = if z = a then some cell else g[a]? := by
  show ((g.entries.insert z ⟨z, cell⟩)[a]?).map Entry.cell = _
  rw [Std.ExtTreeMap.getElem?_insert]
  by_cases h : z = a
  · simp [h]
  · simp [h]
    rfl

/-- The addresses after an insertion. -/
lemma mem_insert : a ∈ g.insert z cell ↔ z = a ∨ a ∈ g := by
  rw [← isSome_getElem?_iff_mem, ← isSome_getElem?_iff_mem, getElem?_insert]
  split <;> simp [*]

/-- What is kept in a grid is listed under its address. -/
lemma toList_entries : g.entries.toList = g.toList.map fun entry => (entry.address, entry) := by
  rw [toList, List.map_map]
  refine (List.map_id _).symm.trans (List.map_congr_left fun item hitem => ?_)
  have found := Std.ExtTreeMap.mem_toList_iff_getElem?_eq_some.1 hitem
  exact Prod.ext (g.addressed _ _ found).symm rfl

/-- A grid lists its cells and nothing else. -/
lemma mem_toList {entry : Entry} : entry ∈ g.toList ↔ g[entry.address]? = some entry.cell := by
  have listed : entry ∈ g.toList ↔ (entry.address, entry) ∈ g.entries.toList := by
    rw [toList_entries, List.mem_map]
    refine ⟨fun h => ⟨entry, h, rfl⟩, ?_⟩
    rintro ⟨entry', h, same⟩
    obtain rfl : entry' = entry := congrArg Prod.snd same
    exact h
  rw [listed, Std.ExtTreeMap.mem_toList_iff_getElem?_eq_some, getElem?_entries]
  cases g[entry.address]? <;> simp [Entry.ext_iff]

/-- The size of a grid is the number of cells that it lists. -/
lemma length_toList : g.toList.length = g.size := by
  rw [toList, List.length_map, Std.ExtTreeMap.length_toList, size]

/-- The addresses of the cells, in row-major order. -/
def addresses (g : Grid) : List Address := g.toList.map Entry.address

/-- They are the keys of the entries. -/
lemma keys_entries : g.entries.keys = g.addresses := by
  rw [← Std.ExtTreeMap.map_fst_toList_eq_keys, toList_entries, List.map_map]
  rfl

/-- They are the addresses where there is a cell. -/
lemma mem_addresses : z ∈ g.addresses ↔ z ∈ g := by
  rw [← keys_entries]
  exact Std.ExtTreeMap.mem_keys

/-- There are as many of them as cells. -/
lemma length_addresses : g.addresses.length = g.size := by
  rw [addresses, List.length_map, length_toList]

/-- They are listed in row-major order. -/
lemma pairwise_addresses : g.addresses.Pairwise fun a b => compare a b = .lt := by
  rw [← keys_entries]
  exact Std.ExtTreeMap.ordered_keys

/-- A list of addresses in row-major order has none of them twice. -/
lemma nodup_of_pairwise {cells : List Address} (h : cells.Pairwise fun a b => compare a b = .lt) :
    cells.Nodup := by
  refine h.imp fun {a b} h => ?_
  rintro rfl
  rw [Std.compare_self] at h
  cases h

/-- Lists of the same addresses in row-major order are equal. -/
lemma eq_of_pairwise {cells cells' : List Address}
    (h : cells.Pairwise fun a b => compare a b = .lt)
    (h' : cells'.Pairwise fun a b => compare a b = .lt) (same : ∀ z, z ∈ cells ↔ z ∈ cells') :
    cells = cells' := by
  have perm : cells.Perm cells' :=
    (List.perm_ext_iff_of_nodup (nodup_of_pairwise h) (nodup_of_pairwise h')).2 same
  refine perm.eq_of_pairwise (fun a b _ _ hab hba => ?_) h h'
  rw [Std.OrientedCmp.gt_of_lt hab] at hba
  cases hba

/-- Grids with cells at the same addresses have the same size. -/
lemma size_congr (h : ∀ z, z ∈ g ↔ z ∈ g') : g.size = g'.size := by
  have same : g.addresses = g'.addresses :=
    eq_of_pairwise pairwise_addresses pairwise_addresses fun z => by
      rw [mem_addresses, mem_addresses, h]
  rw [← length_addresses, ← length_addresses, same]

/-- Puts listed cells into a grid, one after another. -/
def insertAll (g : Grid) (entries : List Entry) : Grid :=
  entries.foldl (fun g entry => g.insert entry.address entry.cell) g

/-- If no address is listed twice, each listed cell is found, and all others are where they were. -/
lemma getElem?_insertAll (g : Grid) {entries : List Entry}
    (nodup : (entries.map Entry.address).Nodup) :
    (∀ entry ∈ entries, (g.insertAll entries)[entry.address]? = some entry.cell) ∧
      ∀ z ∉ entries.map Entry.address, (g.insertAll entries)[z]? = g[z]? := by
  induction entries generalizing g with
  | nil => exact ⟨by simp, fun _ _ => rfl⟩
  | cons first entries ih =>
    rw [List.map_cons, List.nodup_cons] at nodup
    obtain ⟨listed, others⟩ := ih (g.insert first.address first.cell) nodup.2
    refine ⟨fun entry hentry => ?_, fun z hz => ?_⟩
    · rcases List.mem_cons.1 hentry with rfl | hentry
      · refine (others _ nodup.1).trans ?_
        rw [getElem?_insert, if_pos rfl]
      · exact listed entry hentry
    · rw [List.map_cons, List.mem_cons, not_or] at hz
      refine (others z hz.2).trans ?_
      rw [getElem?_insert, if_neg (Ne.symm hz.1)]

/-- A grid is made from the list of its cells. -/
lemma insertAll_toList : (∅ : Grid).insertAll g.toList = g := by
  have nodup : (g.toList.map Entry.address).Nodup := nodup_of_pairwise pairwise_addresses
  obtain ⟨listed, others⟩ := getElem?_insertAll ∅ nodup
  refine ext_getElem? fun z => ?_
  by_cases hz : z ∈ g
  · obtain ⟨entry, hentry, rfl⟩ := List.mem_map.1 (mem_addresses.2 hz)
    rw [listed entry hentry, mem_toList.1 hentry]
  · rw [others z (mt mem_addresses.1 hz), getElem?_eq_none hz, getElem?_empty]

/-- The cells that satisfy a condition on their address and on what they hold. -/
def filter (p : Address → Cell → Bool) (g : Grid) : Grid where
  entries := g.entries.filter fun z entry => p z entry.cell
  addressed z entry h := by
    rw [Std.ExtTreeMap.getElem?_filter', Option.filter_eq_some_iff] at h
    exact g.addressed z entry h.1

/-- A cell that does not satisfy the condition is gone. -/
lemma getElem?_filter {p : Address → Cell → Bool} : (g.filter p)[z]? = g[z]?.filter (p z) := by
  show ((g.entries.filter fun z entry => p z entry.cell)[z]?).map Entry.cell = _
  rw [Std.ExtTreeMap.getElem?_filter', getElem?_entries]
  cases g[z]? with
  | none => rfl
  | some cell => cases h : p z cell <;> simp [Option.filter, h]

/-- The other cells are listed in the order that they had. -/
lemma toList_filter {p : Address → Cell → Bool} :
    (g.filter p).toList = g.toList.filter fun entry => p entry.address entry.cell := by
  have entries : (g.filter p).entries.toList = _ := Std.ExtTreeMap.toList_filter
  rw [toList, entries, toList_entries, List.filter_map, List.map_map]
  exact List.map_id _

/-- The cells that are no expressions. -/
def plain (g : Grid) : Grid := g.filter fun _ cell => !cell.isExpression

/-- A plain cell is found where it was. -/
lemma getElem?_plain : g.plain[z]? = g[z]?.filter (!·.isExpression) := getElem?_filter

/-- The addresses of the plain cells. -/
lemma mem_plain : z ∈ g.plain ↔ ∃ cell, g[z]? = some cell ∧ cell.isExpression = false := by
  rw [← isSome_getElem?_iff_mem, getElem?_plain]
  cases g[z]? <;> simp [Option.isSome_filter]

/-- How many plain cells there are. -/
lemma size_plain : g.plain.size = g.toList.countP fun entry => !entry.cell.isExpression := by
  rw [← length_toList, plain, toList_filter, List.countP_eq_length_filter]

/-- A list of entries from which only the expressions are taken, each with its address. -/
def sources (entries : List Entry) : List (Address × String) :=
  entries.filterMap fun entry => entry.cell.source?.map fun source => (entry.address, source)

/-- The addresses and sources of the expression cells, in row-major order. -/
def expressions (g : Grid) : List (Address × String) := sources g.toList

/-- An expression cell is listed with its source. -/
lemma mem_expressions {source : String} :
    (z, source) ∈ g.expressions ↔ g[z]? = some (.expression source) := by
  rw [expressions, sources, List.mem_filterMap]
  refine ⟨?_, fun h => ⟨⟨z, .expression source⟩, mem_toList.2 h, rfl⟩⟩
  rintro ⟨⟨a, cell⟩, hmem, h⟩
  cases cell <;> simp [Cell.source?] at h
  obtain ⟨rfl, rfl⟩ := h
  exact mem_toList.1 hmem

/-- The addresses of the expressions are those of the cells that are expressions. -/
lemma expressions_map_fst : g.expressions.map Prod.fst =
    (g.toList.filter (·.cell.isExpression)).map Entry.address := by
  unfold expressions sources
  rw [List.map_filterMap, ← List.filterMap_eq_map, List.filterMap_filter]
  refine List.filterMap_congr fun entry _ => ?_
  unfold Cell.isExpression
  cases entry.cell.source? <;> rfl

/-- Expressions are listed in row-major order. -/
lemma pairwise_expressions :
    (g.expressions.map Prod.fst).Pairwise fun a b => compare a b = .lt := by
  rw [expressions_map_fst]
  exact pairwise_addresses.sublist (List.filter_sublist.map Entry.address)

/-- No expression is listed twice. -/
lemma nodup_expressions : (g.expressions.map Prod.fst).Nodup :=
  nodup_of_pairwise pairwise_expressions

/-- The addresses of the expressions. -/
lemma mem_expressions_map_fst :
    z ∈ g.expressions.map Prod.fst ↔ ∃ source, g[z]? = some (.expression source) := by
  simp [← mem_expressions]

/-- Grids that have expressions at the same places list these places alike. -/
lemma expressions_map_fst_congr
    (h : ∀ z : Address, (∃ source, g[z]? = some (.expression source)) ↔
      ∃ source, g'[z]? = some (.expression source)) :
    g.expressions.map Prod.fst = g'.expressions.map Prod.fst :=
  eq_of_pairwise pairwise_expressions pairwise_expressions fun z => by
    rw [mem_expressions_map_fst, mem_expressions_map_fst, h]

/-- How many expressions there are. -/
lemma length_expressions : g.expressions.length = g.toList.countP (·.cell.isExpression) := by
  rw [← List.length_map Prod.fst, expressions_map_fst, List.length_map,
    List.countP_eq_length_filter]

/-- Every cell is plain or an expression. -/
lemma size_eq_add : g.size = (g.toList.countP fun entry => !entry.cell.isExpression) +
    g.toList.countP fun entry => entry.cell.isExpression := by
  rw [← length_toList, List.length_eq_countP_add_countP fun entry => !entry.cell.isExpression]
  simp

end TableCalc.Grid
