/-!
# Blank characters

The characters of the Unicode property `White_Space`, and a text without those at its two ends.
-/

set_option autoImplicit false

namespace BusMap.Text

/-- Ranges of code points that are blank, both ends included. -/
def blankRanges : List (Nat × Nat) :=
  [(0x09, 0x0D), (0x20, 0x20), (0x85, 0x85), (0xA0, 0xA0), (0x1680, 0x1680), (0x2000, 0x200A),
    (0x2028, 0x2029), (0x202F, 0x202F), (0x205F, 0x205F), (0x3000, 0x3000)]

/-- The character is blank. -/
def isBlank (c : Char) : Bool :=
  blankRanges.any fun (lo, hi) => lo ≤ c.toNat && c.toNat ≤ hi

/-- The text without blank characters at its start and end. -/
def trim (cs : List Char) : List Char :=
  ((cs.dropWhile isBlank).reverse.dropWhile isBlank).reverse

/-- The text without the separators `_` that may stand between digits. -/
def dropUnderscores (cs : List Char) : List Char :=
  cs.filter (· ≠ '_')

end BusMap.Text
