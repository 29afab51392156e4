import TabletopDice.Substitution

/-!
# Reduction of a buffer to an integer

A buffer is text. One pass takes the first rule, in the order of `Rule.priority`, that occurs anywhere in it and
replaces the leftmost occurrence by its value; passes follow one another until the buffer is one numeral or no
rule occurs.

- `onePass` is one pass, and `reduce` all of them (`reduce_eq_bind`); it ends because each pass leaves fewer live
  lexemes;
- `passes` lists the passes one by one, the last one included.
-/

namespace TabletopDice

/-- What one pass does: a rule leaves a new buffer, or the buffer is one numeral, or no rule occurs in it. -/
inductive Pass
  | replaced (rule : Rule) (buffer : Text)
  | finished
  | stuck
  deriving DecidableEq, Repr

/-- The rule that applies to a buffer, and where. -/
def redex? (buffer : Text) : Option (Rule × Match) :=
  let row := lexemes buffer
  Rule.priority.findSome? fun rule => (rule.find? row).map fun m => (rule, m)

/-- The rule of a redex occurs at its place. -/
theorem occurrence_of_redex? {buffer : Text} {rule : Rule} {m : Match} (h : redex? buffer = some (rule, m)) :
    rule.occurrence? buffer = some m := by
  obtain ⟨r, -, hr⟩ := List.exists_of_findSome?_eq_some h
  obtain ⟨m', hm, e⟩ := Option.map_eq_some_iff.mp hr
  obtain ⟨rfl, rfl⟩ := Prod.mk.injEq .. ▸ e
  exact hm

section

variable {σ : Type} [Roller σ]

/-- The value of a redex, told together with the buffer that it leaves. -/
def contract (rule : Rule) (m : Match) : Play σ Int := do
  let value ← rule.valueOf m.text
  Play.tell (.substituting rule m.text value)
  Play.tell (.reduced (m.replace value))
  return value

/-- One pass. -/
def onePass (buffer : Text) : Play σ Pass :=
  if isNumeral buffer then pure .finished
  else match redex? buffer with
    | none => pure .stuck
    | some (rule, m) => do
      let value ← contract rule m
      return .replaced rule (m.replace value)

/-- The number that a finished buffer writes. -/
def readTotal (buffer : Text) : Except Fault UInt64 := Operator.readOperand buffer

/-- Passes until the buffer is one numeral; the total is its number. -/
def reduce (buffer : Text) : Play σ UInt64 :=
  if isNumeral buffer then Play.ofExcept (readTotal buffer)
  else match _ : redex? buffer with
    | none => Play.fail (.malformed buffer)
    | some (rule, m) => do
      let value ← contract rule m
      reduce (m.replace value)
termination_by live (lexemes buffer)
decreasing_by exact live_replace_lt (occurrence_of_redex? ‹_›) value

/-- To reduce a buffer is to make a pass and to go on from what it leaves. -/
theorem reduce_eq_bind (buffer : Text) :
    (reduce buffer : Play σ UInt64) = (onePass buffer >>= fun pass =>
      match pass with
      | .replaced _ next => reduce next
      | .finished => Play.ofExcept (readTotal buffer)
      | .stuck => Play.fail (.malformed buffer)) := by
  rw [reduce, onePass]
  split
  · rw [pure_bind]
  · split <;> simp [*]

/-- The buffer after a pass over `buffer`. -/
def Pass.bufferAfter (buffer : Text) : Except Fault Pass → Text
  | .ok (.replaced _ next) => next
  | _ => buffer

/-- A pass that replaces something leaves fewer live lexemes. -/
theorem live_lt_of_onePass {buffer next : Text} {tray tray' : Tray σ} {rule : Rule} {events : List Event}
    (h : (onePass buffer).run tray = ⟨.ok (.replaced rule next), tray', events⟩) :
    live (lexemes next) < live (lexemes buffer) := by
  unfold onePass at h
  split at h
  · cases h
  · split at h
    · cases h
    · rename_i r m hr
      rw [Play.run_bind] at h
      split at h
      · rename_i value _ _ _
        obtain ⟨rfl, rfl⟩ : r = rule ∧ m.replace value = next := by
          simpa [Outcome.after] using congrArg Outcome.result h
        exact live_replace_lt (occurrence_of_redex? hr) value
      · cases h

/-- The passes over a buffer, each with the buffer that it leaves, until one does not reduce. -/
def passes (buffer : Text) (tray : Tray σ) : List (Text × Outcome σ Pass) :=
  match _ : (onePass buffer).run tray with
  | ⟨.ok (.replaced rule next), tray', events⟩ =>
    (next, ⟨.ok (.replaced rule next), tray', events⟩) :: passes next tray'
  | outcome => [(buffer, outcome)]
termination_by live (lexemes buffer)
decreasing_by exact live_lt_of_onePass ‹_›

end
end TabletopDice
