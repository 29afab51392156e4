import TabletopDice.Roller

/-!
# Rollers that show given faces

`Cycle` repeats a list of faces for ever, and `Fixed` shows one face on every die. Both fit the face to the die:
a cycle counts on from the first face of a die that has too few, and a fixed face stops at the highest. With the
fixed faces `1` and `2 ^ 64 - 1` every die shows its lowest and its highest face.
-/

namespace TabletopDice

/-- A list of faces and the number of those already shown. -/
structure Cycle where
  faces : List UInt64
  position : Nat := 0
  deriving DecidableEq, Repr

namespace Cycle

/-- The listed face that comes next. -/
def face (cycle : Cycle) : UInt64 := cycle.faces.getD (cycle.position % cycle.faces.length) 1

instance : Roller Cycle where
  roll die cycle :=
    (UInt64.ofNat ((cycle.face.toNat - 1) % die.sides.toNat + 1), { cycle with position := cycle.position + 1 })

end Cycle

/-- One face for all dice. -/
structure Fixed where
  face : UInt64
  deriving DecidableEq, Repr

instance : Roller Fixed where
  roll die fixed := (min fixed.face die.sides, fixed)

end TabletopDice
