import TabletopDice.Roller

/-!
# Dice from random words

A source of 64-bit words rolls dice without bias. The word `v` goes to the face `v · sides / 2 ^ 64 + 1`, and it
is used only if the remainder `v · sides mod 2 ^ 64` is at most a bound, the zone; other words are passed over.

- `Die.rollZone`, for a single die, is a power of two times the sides, less one: it leaves each face that power of
  two of words;
- `Die.manyZone`, for the dice of a sum, is the largest zone that leaves each face the same number of words;
- `firstAccepted` looks for a word among the next ones; `WordSource.horizon` says among how many;
- `Script` is a source of given words, with zeros behind them.
-/

namespace TabletopDice

/-- Sources of random words, by states of the type `γ`. -/
class WordSource (γ : Type) where
  /-- The next word. -/
  next : γ → UInt64 × γ
  /-- A number of words among which every word still to come occurs. -/
  horizon : γ → Nat

namespace Die

/-- The product that a word is judged by. -/
def spread (die : Die) (word : UInt64) : Nat := word.toNat * die.sides.toNat

/-- The face that a word stands for. -/
def faceOf (die : Die) (word : UInt64) : UInt64 := UInt64.ofNat (die.spread word / UInt64.size + 1)

/-- Whether a word is used under a zone. -/
def accepts (die : Die) (zone : Nat) (word : UInt64) : Bool := die.spread word % UInt64.size ≤ zone

/-- The zone of a single roll. -/
def rollZone (die : Die) : Nat := die.sides.toNat * Nat.pow 2 (63 - die.sides.toNat.log2) - 1

/-- The zone of the rolls of a sum. -/
def manyZone (die : Die) : Nat := (UInt64.size - 1) - (UInt64.size - die.sides.toNat) % die.sides.toNat

end Die

section

variable {γ : Type} [WordSource γ]

/-- The first accepted word among the next `n`, and the source behind it. -/
def firstAccepted (accepts : UInt64 → Bool) : Nat → γ → Option UInt64 × γ
  | 0, source => (none, source)
  | n + 1, source =>
    match WordSource.next source with
    | (word, rest) => if accepts word then (some word, rest) else firstAccepted accepts n rest

/-- A face drawn under a zone; the face `1` if the source has no word that the zone accepts. -/
def Die.sample (die : Die) (zone : Nat) (source : γ) : UInt64 × γ :=
  match firstAccepted (die.accepts zone) (WordSource.horizon source) source with
  | (some word, rest) => (die.faceOf word, rest)
  | (none, rest) => (1, rest)

instance : Roller γ where
  roll die source := die.sample die.rollZone source
  rollMany n die source := sumDraws (die.sample die.manyZone) n 0 source

end

/-- The words to come; behind them there are only zeros. -/
structure Script where
  words : List UInt64
  deriving DecidableEq, Repr

instance : WordSource Script where
  next
    | ⟨[]⟩ => (0, ⟨[]⟩)
    | ⟨word :: rest⟩ => (word, ⟨rest⟩)
  horizon script := script.words.length + 1

/-- A source together with the number of words it has given. -/
structure CountedWords (γ : Type) where
  source : γ
  drawn : Nat := 0
  deriving DecidableEq, Repr

instance {γ : Type} [WordSource γ] : WordSource (CountedWords γ) where
  next counted :=
    match WordSource.next counted.source with
    | (word, source) => (word, ⟨source, counted.drawn + 1⟩)
  horizon counted := WordSource.horizon counted.source

end TabletopDice
