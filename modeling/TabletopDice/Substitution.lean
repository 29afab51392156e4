import TabletopDice.Play

/-!
# What a rule puts in the place of a text

- `Operator.apply` computes in the natural numbers: products and sums have to fit in 64 bits, division truncates,
  and a difference may be negative;
- `Operator.operands` cuts a text at the first operator character; an operand that is no numeral counts as too
  large, and the left one is read first;
- `Rule.valueOf` is the value of a text under a rule. Only dice touch the tray.
-/

namespace TabletopDice

/-- A number that has to fit in 64 bits. -/
def checked (n : Nat) : Except Fault Int := if n < UInt64.size then .ok n else .error .overflow

namespace Operator

/-- The value of an operator at two numbers. -/
def apply : Operator → UInt64 → UInt64 → Except Fault Int
  | multiply, l, r => checked (l.toNat * r.toNat)
  | divide, l, r => if r = 0 then .error .divisionByZero else .ok (l.toNat / r.toNat : Nat)
  | add, l, r => checked (l.toNat + r.toNat)
  | subtract, l, r => .ok ((l.toNat : Int) - r.toNat)

/-- An operand: every unreadable numeral is taken for one that is too large. -/
def readOperand (t : Text) : Except Fault UInt64 :=
  match Numeral.read t with
  | .ok value => .ok value
  | .error _ => .error .overflow

/-- The two operands in a text. -/
def operands (op : Operator) (t : Text) : Except Fault (UInt64 × UInt64) :=
  match t.cut? op.mark with
  | none => .error (.malformed t)
  | some (left, right) => do
    let l ← readOperand left
    let r ← readOperand right
    return (l, r)

/-- The value of a text under an operator. -/
def valueOf (op : Operator) (t : Text) : Except Fault Int := do
  let (l, r) ← op.operands t
  op.apply l r

end Operator

/-- Why a text does not name dice that can be rolled: a number is too large, or the text cannot be reduced. -/
def Fault.ofDice (t : Text) : Dice.Fault → Fault
  | .invalidCount .tooLarge => .overflow
  | .invalidSides .tooLarge => .overflow
  | _ => .malformed t

/-- The dice that a text in a buffer names. -/
def readDice (t : Text) : Except Fault Dice :=
  match Dice.read t with
  | .ok dice => .ok dice
  | .error fault => .error (.ofDice t fault)

/-- The value of a text under a rule. -/
def Rule.valueOf {σ : Type} [Roller σ] : Rule → Text → Play σ Int
  | .dice, t => do
    let dice ← Play.ofExcept (readDice t)
    let total ← Play.roll dice
    Play.tell (.rolled dice total)
    return total.toNat
  | .binary op, t => Play.ofExcept (op.valueOf t)

end TabletopDice
