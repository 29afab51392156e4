import TabletopDice.Fault
import TabletopDice.Roller

/-!
# The dice tray

Dice are rolled in a tray: it holds the roller and counts the dice, up to a budget if there is one.

- `Tray.book` counts dice before they are rolled. It refuses, and changes nothing, if the count would exceed the
  budget or reach `2 ^ 64`;
- `Tray.roll` books the dice and sums their faces. If the sum does not fit, the dice stay booked.
-/

namespace TabletopDice

/-- A roller, the number of dice booked, and the most that may be. -/
structure Tray (σ : Type) where
  roller : σ
  booked : UInt64 := 0
  budget : Option UInt64 := none
  deriving DecidableEq, Repr

namespace Tray

variable {σ : Type}

/-- The tray with no dice booked. -/
def reset (tray : Tray σ) : Tray σ := { tray with booked := 0 }

/-- Whether the budget allows so many dice; without a budget any number is allowed. -/
def allows (tray : Tray σ) (dice : UInt64) : Bool :=
  match tray.budget with
  | none => true
  | some most => dice ≤ most

/-- The tray with more dice booked, if their number can be counted and the budget allows it. -/
def book (tray : Tray σ) (count : UInt64) : Option (Tray σ) :=
  match fit? (tray.booked.toNat + count.toNat) with
  | none => none
  | some booked => if tray.allows booked then some { tray with booked } else none

/-- Draws the faces of dice: one die by itself, any other number as a sum. -/
def draw [Roller σ] (tray : Tray σ) (dice : Dice) : Option UInt64 × Tray σ :=
  if dice.count = 1 then
    match Roller.roll dice.die tray.roller with
    | (face, roller) => (some face, { tray with roller })
  else
    match Roller.rollMany dice.count.toNat dice.die tray.roller with
    | (sum, roller) => (sum, { tray with roller })

/-- Books dice and sums their faces. -/
def roll [Roller σ] (tray : Tray σ) (dice : Dice) : Except Fault UInt64 × Tray σ :=
  match tray.book dice.count with
  | none => (.error .tooManyDice, tray)
  | some booked =>
    match booked.draw dice with
    | (some total, rolled) => (.ok total, rolled)
    | (none, rolled) => (.error .overflow, rolled)

end Tray
end TabletopDice
