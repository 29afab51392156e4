import TabletopDice.Dice
import TabletopDice.Rule

/-!
# Events of an evaluation

What an evaluation does, step by step, in the order in which it happens.
-/

namespace TabletopDice

/-- A step that an evaluation has taken. -/
inductive Event
  /-- Dice were rolled. -/
  | rolled (dice : Dice) (total : UInt64)
  /-- A rule is about to replace the text `matched`. -/
  | substituting (rule : Rule) (matched : Text) (value : Int)
  /-- A rule has left this buffer. -/
  | reduced (buffer : Text)
  /-- A group, given with its parentheses, has a value. -/
  | resolvedGroup (group : Text) (value : UInt64)
  /-- The instruction has a total. -/
  | evaluated (instruction : Text) (total rolls : UInt64)
  deriving DecidableEq, Repr

end TabletopDice
