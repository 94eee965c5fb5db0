/-!
# Whole numbers as doubles

A double has 53 significant bits, and its exponent ends at `2 ^ 1024`.

* `Double.nearest` — the double that is nearest to a whole number, with unlimited exponent;
* `Double.overflow` — the least number that is too large for a double.
-/

namespace Latch.Double

/-- Rounds to 53 significant bits; a tie goes to the even neighbour. -/
def nearest (n : Nat) : Nat :=
  let unit := Nat.pow 2 (n.log2 + 1 - 53)
  let floor := n / unit
  let rest := n % unit
  if unit < 2 * rest ∨ (unit = 2 * rest ∧ floor % 2 = 1) then (floor + 1) * unit else floor * unit

/-- The least number that rounds to infinity: half a step above the largest double. -/
def overflow : Nat := Nat.pow 2 1024 - Nat.pow 2 970

end Latch.Double
