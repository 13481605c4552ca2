/-!
# White space, words and lines

White space is the Unicode property White_Space: 25 characters in 10 ranges. Words are the maximal
runs of other characters. A line ends with a line feed; a carriage return before it is white space
like any other, so both styles of line ending read alike wherever a line is only cut into words.
-/

namespace TableCalc.Text

/-- The White_Space characters as closed ranges of code points, ascending. -/
def blankRanges : List (Nat × Nat) :=
  [(0x09, 0x0D), (0x20, 0x20), (0x85, 0x85), (0xA0, 0xA0), (0x1680, 0x1680), (0x2000, 0x200A),
   (0x2028, 0x2029), (0x202F, 0x202F), (0x205F, 0x205F), (0x3000, 0x3000)]

/-- Whether a character is white space. -/
def isBlank (c : Char) : Bool := blankRanges.any fun r => r.1 ≤ c.toNat && c.toNat ≤ r.2

/-- The words of a text, in order. -/
def words (cs : List Char) : List (List Char) := (cs.splitOnP isBlank).filter fun w => !w.isEmpty

/-- The lines of a text. A text that ends with a line feed has no further, empty line after it. -/
def lines (cs : List Char) : List (List Char) :=
  let pieces := cs.splitOn '\n'
  if pieces.getLast? = some [] then pieces.dropLast else pieces

/-- The text without the white space at its two ends. -/
def trim (cs : List Char) : List Char := ((cs.dropWhile isBlank).reverse.dropWhile isBlank).reverse

end TableCalc.Text
