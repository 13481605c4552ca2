import Std.Data.ExtTreeMap
import TableCalc.Text.Digits

/-!
# Cell addresses

An address is a row and a column, both counted from zero. It is written as column letters followed
by the row number counted from one: `B3` is column 1 of row 2. Columns past `Z` go on with two
letters (`AA`, `AB`, …), so the letters are the bijective numeral of the column in base 26.
Addresses are read back only for the first 26 columns.

Addresses are ordered by row and then by column, which is the order in which a table is walked.
-/

namespace TableCalc

/-- The place of a cell, counted from zero. -/
structure Address where
  row : Nat
  col : Nat
deriving DecidableEq, Repr

namespace Address

/-- Row-major order. -/
instance : Ord Address where
  compare a b := (compare a.row b.row).then (compare a.col b.col)

instance : Std.TransOrd Address :=
  inferInstanceAs (Std.TransCmp (compareLex (compareOn Address.row) (compareOn Address.col)))

instance : Std.LawfulEqOrd Address where
  eq_of_compare {a b} h := by
    obtain ⟨hrow, hcol⟩ := Ordering.then_eq_eq.1 h
    cases a
    cases b
    simp_all

/-- The capital letter with this index, `A` for 0. -/
def letter (i : Nat) : Char := Char.ofNat ('A'.toNat + i)

/-- The letters of a column: `A` to `Z`, then `AA`, `AB` and so on. -/
def columnLetters (col : Nat) : List Char :=
  if col < 26 then [letter col] else columnLetters (col / 26 - 1) ++ [letter (col % 26)]
termination_by col

/-- The written form: column letters, then the row number from one. -/
def name (a : Address) : String := String.ofList (columnLetters a.col) ++ toString (a.row + 1)

/-- The column of a single ASCII letter, of either case. -/
def columnOfLetter? (c : Char) : Option Nat :=
  if c.isUpper then some (c.toNat - 'A'.toNat)
  else if c.isLower then some (c.toNat - 'a'.toNat)
  else none

/-- Reads one letter and a row number between 1 and `2 ^ 64 - 1`, leading zeros allowed. -/
def ofChars? : List Char → Option Address
  | [] => none
  | c :: digits => do
    let col ← columnOfLetter? c
    match ← Text.size? digits with
    | 0 => none
    | row + 1 => some ⟨row, col⟩

/-- The address with this written form. -/
def ofName? (s : String) : Option Address := ofChars? s.toList

end Address

end TableCalc
