import TableCalc.Address
import TableCalc.Cell

/-!
# Grids

A grid holds the cells of a table that are present. Each of them knows its own address and is kept
under this address, so no cell is ever found at another place than its own. A grid lists its cells
in row-major order.
-/

namespace TableCalc

/-- A cell with its address. -/
@[ext] structure Entry where
  address : Address
  cell : Cell
deriving DecidableEq, Repr

/-- The cells that are present, each of them under its own address. -/
structure Grid where
  entries : Std.ExtTreeMap Address Entry := ∅
  addressed : ∀ (z : Address) (entry : Entry), entries[z]? = some entry → entry.address = z := by
    simp

namespace Grid

instance : EmptyCollection Grid := ⟨{}⟩

instance : Membership Address Grid := ⟨fun g z => z ∈ g.entries⟩

instance (g : Grid) (z : Address) : Decidable (z ∈ g) :=
  inferInstanceAs (Decidable (z ∈ g.entries))

instance : GetElem? Grid Address Cell fun g z => z ∈ g where
  getElem g z h := (g.entries.get z h).cell
  getElem? g z := g.entries[z]?.map Entry.cell

/-- How many cells there are. -/
def size (g : Grid) : Nat := g.entries.size

/-- The cells, in row-major order. -/
def toList (g : Grid) : List Entry := g.entries.toList.map Prod.snd

/-- Puts a cell at an address, in place of the one that may be there. -/
def insert (g : Grid) (z : Address) (cell : Cell) : Grid where
  entries := g.entries.insert z ⟨z, cell⟩
  addressed a entry h := by
    rw [Std.ExtTreeMap.getElem?_insert] at h
    split at h
    case isTrue hz =>
      cases h
      exact Std.LawfulEqOrd.eq_of_compare hz
    case isFalse _ => exact g.addressed a entry h

end Grid

end TableCalc
