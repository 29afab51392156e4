/-!
# Depths

How deep the parts of a pattern are nested. A single part is as deep as what it holds; several in a row are one
level deeper than the deepest of them.
-/

namespace TabletopDice.Log.Pattern.Depth

/-- The deepest that a pattern may be. -/
def limit : Nat := 250

/-- The depth of parts in a row, by their depths. -/
def row : List Nat → Nat
  | [] => 0
  | [depth] => depth
  | depths => depths.foldr max 0 + 1

end TabletopDice.Log.Pattern.Depth
