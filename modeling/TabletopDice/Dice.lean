import TabletopDice.Numeral

/-!
# Dice

`NdS` stands for `N` dice with `S` sides each.

- `Die` has at least one side, so a roll always has a face to show;
- `Dice.read` reads `NdS`: the count may be missing or zero, which means one die, and a fault of the count is
  reported before a fault of the sides;
- `Dice.write` writes `NdS` with its count.
-/

namespace TabletopDice

/-- A die with the faces `1` to `sides`. -/
structure Die where
  sides : UInt64
  sides_pos : 0 < sides.toNat := by decide
  deriving DecidableEq, Repr

/-- The die with so many sides, unless there are none. -/
def Die.ofSides? (sides : UInt64) : Option Die :=
  if h : 0 < sides.toNat then some ⟨sides, h⟩ else none

/-- A number of equal dice. -/
structure Dice where
  count : UInt64
  die : Die
  deriving DecidableEq, Repr

namespace Dice

/-- Why a text does not name dice. -/
inductive Fault
  | noMark
  | invalidCount (reason : Numeral.Fault)
  | invalidSides (reason : Numeral.Fault)
  | noSides
  deriving DecidableEq, Repr

/-- The wording of a fault. -/
def Fault.message : Fault → String
  | .noMark => "cannot parse string as dice without 'd' delimiter"
  | .invalidCount reason => "invalid dice count: " ++ reason.message
  | .invalidSides reason => "invalid number of sides: " ++ reason.message
  | .noSides => "dice must have at least one side"

/-- The count before the `d`: one die if it is missing or zero. -/
def readCount (t : Text) : Except Fault UInt64 :=
  if t = [] then .ok 1
  else match Numeral.read t with
    | .error reason => .error (.invalidCount reason)
    | .ok count => .ok (if count = 0 then 1 else count)

/-- The die after the `d`. -/
def readDie (t : Text) : Except Fault Die :=
  match Numeral.read t with
  | .error reason => .error (.invalidSides reason)
  | .ok sides => match Die.ofSides? sides with
    | none => .error .noSides
    | some die => .ok die

/-- The dice that a text names, cut at its first `d`. -/
def read (t : Text) : Except Fault Dice :=
  match t.cut? 'd' with
  | none => .error .noMark
  | some (before, after) => do
    let count ← readCount before
    let die ← readDie after
    return ⟨count, die⟩

/-- The text `NdS`. -/
def write (dice : Dice) : Text :=
  Numeral.write dice.count.toNat ++ 'd' :: Numeral.write dice.die.sides.toNat

end Dice
end TabletopDice
