import TabletopDice.Dice

/-!
# Rollers

A roller shows a face for each die rolled. Rolling is a function from the roller's state to a face and the next
state; nothing but the state decides the face.

- `sumDraws` adds draws one by one and stops at the first draw with which the sum no longer fits in 64 bits;
- `Roller.rollMany` sums several dice, unless an instance says otherwise by `sumDraws` over single rolls;
- `Counted` lets any roller count the faces it has shown.
-/

namespace TabletopDice

/-- Adds `n` draws to `sum`. The draw with which the sum reaches `2 ^ 64` is the last one. -/
def sumDraws {σ : Type} (draw : σ → UInt64 × σ) : Nat → UInt64 → σ → Option UInt64 × σ
  | 0, sum, s => (some sum, s)
  | n + 1, sum, s =>
    match draw s with
    | (face, rest) =>
      match fit? (sum.toNat + face.toNat) with
      | none => (none, rest)
      | some grown => sumDraws draw n grown rest

/-- Ways to roll dice, by states of the type `σ`. -/
class Roller (σ : Type) where
  /-- The face of one die. -/
  roll : Die → σ → UInt64 × σ
  /-- The sum of so many equal dice, if it fits in 64 bits. -/
  rollMany : Nat → Die → σ → Option UInt64 × σ := fun n die => sumDraws (roll die) n 0

/-- A roller together with the number of faces it has shown. -/
structure Counted (σ : Type) where
  roller : σ
  drawn : Nat := 0
  deriving DecidableEq, Repr

instance {σ : Type} [Roller σ] : Roller (Counted σ) where
  roll die counted :=
    match Roller.roll die counted.roller with
    | (face, roller) => (face, ⟨roller, counted.drawn + 1⟩)

end TabletopDice
