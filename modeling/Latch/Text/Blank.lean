/-!
# Blank characters

The characters with the Unicode property `White_Space`, and texts without those at their ends. The
zero-width space and the separators U+001C to U+001F do not have the property.
-/

namespace Latch.Text

/-- The ranges of the property, both ends included. -/
def blankRanges : List (Nat × Nat) :=
  [(0x09, 0x0d), (0x20, 0x20), (0x85, 0x85), (0xa0, 0xa0), (0x1680, 0x1680), (0x2000, 0x200a),
    (0x2028, 0x2029), (0x202f, 0x202f), (0x205f, 0x205f), (0x3000, 0x3000)]

def isBlank (c : Char) : Bool :=
  blankRanges.any fun (low, high) => low ≤ c.toNat && c.toNat ≤ high

/-- Drops blanks from both ends. -/
def trim (cs : List Char) : List Char :=
  ((cs.dropWhile isBlank).reverse.dropWhile isBlank).reverse

/-- Makes the letters `A` to `Z` small; other scripts are left alone. -/
def toLower (cs : List Char) : List Char := cs.map Char.toLower

end Latch.Text
