import TabletopDice.Text

/-!
# Ranges of characters

A class of characters is a list of ranges of code points, each by its first and its last one. Surrogate code points
are no characters, so a range may run across them.
-/

namespace TabletopDice.Text

/-- Ranges of code points. -/
abbrev Ranges := List (Nat × Nat)

namespace Ranges

/-- Whether a character is in one of the ranges. -/
def has (ranges : Ranges) (c : Char) : Bool := ranges.any fun r => r.1 ≤ c.toNat && c.toNat ≤ r.2

end Ranges
end TabletopDice.Text
