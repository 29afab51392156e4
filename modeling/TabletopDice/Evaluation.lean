import TabletopDice.Group
import TabletopDice.Reduction

/-!
# Evaluation of an instruction

- `resolveGroups` replaces groups by their values, leftmost first, until there is no group; unmatched parentheses
  stay. If a group has no value, the groups resolved before it stay resolved;
- `evaluate` takes the double quotes out of an instruction, resolves its groups and reduces what is left.
-/

namespace TabletopDice

/-- The buffer that the resolution of groups leaves, and the fault that ended it early. -/
structure Resolution where
  buffer : Text
  fault : Option Fault
  deriving DecidableEq, Repr

section

variable {σ : Type} [Roller σ]

/-- Replaces the groups of a buffer by their values. -/
def resolveGroups (buffer : Text) : Play σ Resolution :=
  match _ : Group.find? buffer with
  | none => return ⟨buffer, none⟩
  | some g => do
    match ← (reduce g.inside).attempt with
    | .error fault => return ⟨buffer, some fault⟩
    | .ok value =>
      Play.tell (.resolvedGroup g.text value)
      resolveGroups (g.replace value)
termination_by buffer.count '('
decreasing_by exact Group.count_replace_lt ‹_› value

/-- The text without double quotes. -/
def unquote (t : Text) : Text := t.filter fun c => c != '"'

/-- The total of a buffer whose groups have been resolved. -/
def Resolution.total : Resolution → Play σ UInt64
  | ⟨_, some fault⟩ => Play.fail fault
  | ⟨buffer, none⟩ => reduce buffer

/-- The total of an instruction, counting its dice from zero. -/
def evaluate (instruction : Text) : Play σ UInt64 := do
  Play.reset
  let resolution ← resolveGroups (unquote instruction)
  let total ← resolution.total
  Play.tell (.evaluated instruction total (← Play.booked))
  return total

/-- The sum of `count` dice with so many sides. -/
def roll (sides count : UInt64) : Play σ UInt64 :=
  match Die.ofSides? sides with
  | none => Play.fail .noSides
  | some die => Play.roll ⟨count, die⟩

end
end TabletopDice
