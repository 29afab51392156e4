import TabletopDice.Text.Quoted

/-!
# Faults of an evaluation
-/

namespace TabletopDice

/-- Why an expression or a roll has no total. -/
inductive Fault
  /-- The text `buffer` is no integer and nothing in it can be reduced. -/
  | malformed (buffer : Text)
  | divisionByZero
  | noSides
  /-- A number is `2 ^ 64` or more. -/
  | overflow
  /-- The dice exceed the budget, or can no longer be counted. -/
  | tooManyDice
  deriving DecidableEq, Repr

/-- The wording of a fault. -/
def Fault.message : Fault → String
  | .malformed buffer => "invalid syntax: cannot reduce " ++ String.ofList buffer.quoted ++ " to an integer"
  | .divisionByZero => "cannot divide by zero"
  | .noSides => "dice must have at least one side"
  | .overflow => "integer overflow"
  | .tooManyDice => "too many dice rolled"

end TabletopDice
