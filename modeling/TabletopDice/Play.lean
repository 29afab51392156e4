import TabletopDice.Event
import TabletopDice.Tray

/-!
# Plays

A play is a computation on a tray that may fail. It has an outcome in any case: the result, the tray it leaves
behind, and the events of the play. A failure undoes nothing.

- plays form a lawful monad: `bind` hands the tray on, joins the events, and stops at a failure.
-/

namespace TabletopDice

/-- What a play comes to. -/
structure Outcome (σ α : Type) where
  result : Except Fault α
  tray : Tray σ
  events : List Event

/-- A computation that may roll dice, fail, and tell what it does. -/
def Play (σ α : Type) : Type := Tray σ → Outcome σ α

/-- An outcome that comes after earlier events. -/
def Outcome.after {σ α : Type} (earlier : List Event) (outcome : Outcome σ α) : Outcome σ α :=
  { outcome with events := earlier ++ outcome.events }

namespace Play

variable {σ α β : Type}

/-- Starts a play on a tray. -/
def run (play : Play σ α) (tray : Tray σ) : Outcome σ α := play tray

/-- Plays are equal if they have equal outcomes on every tray. -/
@[ext] theorem ext {p q : Play σ α} (h : ∀ tray, p.run tray = q.run tray) : p = q := funext h

instance : Monad (Play σ) where
  pure a := fun tray => ⟨.ok a, tray, []⟩
  bind play next := fun tray =>
    match play tray with
    | ⟨.ok a, tray, events⟩ => (next a tray).after events
    | ⟨.error fault, tray, events⟩ => ⟨.error fault, tray, events⟩

/-- The play that fails. -/
def fail (fault : Fault) : Play σ α := fun tray => ⟨.error fault, tray, []⟩

/-- The play that succeeds or fails as a result says. -/
def ofExcept (result : Except Fault α) : Play σ α := fun tray => ⟨result, tray, []⟩

/-- Tells an event. -/
def tell (event : Event) : Play σ Unit := fun tray => ⟨.ok (), tray, [event]⟩

/-- The number of dice booked in the tray. -/
def booked : Play σ UInt64 := fun tray => ⟨.ok tray.booked, tray, []⟩

/-- Takes all booked dice back. -/
def reset : Play σ Unit := fun tray => ⟨.ok (), tray.reset, []⟩

/-- The play with its result, be it a failure, as the value. -/
def attempt (play : Play σ α) : Play σ (Except Fault α) := fun tray =>
  match play tray with
  | ⟨result, tray, events⟩ => ⟨.ok result, tray, events⟩

/-- Rolls dice in the tray. -/
def roll [Roller σ] (dice : Dice) : Play σ UInt64 := fun tray =>
  match tray.roll dice with
  | (result, tray) => ⟨result, tray, []⟩

/-! ## The laws of plays -/

@[simp] theorem run_pure (a : α) (tray : Tray σ) : run (pure a) tray = ⟨.ok a, tray, []⟩ := rfl

@[simp] theorem run_fail (fault : Fault) (tray : Tray σ) :
    (fail fault : Play σ α).run tray = ⟨.error fault, tray, []⟩ := rfl

@[simp] theorem run_ofExcept (result : Except Fault α) (tray : Tray σ) :
    (ofExcept result).run tray = ⟨result, tray, []⟩ := rfl

@[simp] theorem run_tell (event : Event) (tray : Tray σ) : (tell event).run tray = ⟨.ok (), tray, [event]⟩ := rfl

@[simp] theorem run_booked (tray : Tray σ) : booked.run tray = ⟨.ok tray.booked, tray, []⟩ := rfl

@[simp] theorem run_reset (tray : Tray σ) : (reset : Play σ Unit).run tray = ⟨.ok (), tray.reset, []⟩ := rfl

@[simp] theorem run_roll [Roller σ] (dice : Dice) (tray : Tray σ) :
    (roll dice).run tray = ⟨(tray.roll dice).1, (tray.roll dice).2, []⟩ := rfl

/-- An attempt has the tray and the events of the play itself. -/
theorem run_attempt (play : Play σ α) (tray : Tray σ) :
    play.attempt.run tray = ⟨.ok (play.run tray).result, (play.run tray).tray, (play.run tray).events⟩ := rfl

/-- A play continues on the tray that its first part leaves, unless that part fails. -/
theorem run_bind (play : Play σ α) (next : α → Play σ β) (tray : Tray σ) :
    (play >>= next).run tray =
      match play.run tray with
      | ⟨.ok a, tray, events⟩ => ((next a).run tray).after events
      | ⟨.error fault, tray, events⟩ => ⟨.error fault, tray, events⟩ := rfl

theorem id_map_play (play : Play σ α) : id <$> play = play := by
  ext tray
  show (play >>= pure).run tray = play.run tray
  rw [run_bind]
  rcases play.run tray with ⟨_ | _, _, _⟩ <;> simp [Outcome.after]

theorem pure_bind_play (a : α) (next : α → Play σ β) : pure a >>= next = next a := by
  ext tray
  simp [run_bind, Outcome.after]

theorem bind_assoc_play {γ : Type} (play : Play σ α) (next : α → Play σ β) (last : β → Play σ γ) :
    play >>= next >>= last = play >>= fun a => next a >>= last := by
  ext tray
  simp only [run_bind]
  rcases play.run tray with ⟨_ | a, tray, events⟩
  · rfl
  · simp only [Outcome.after]
    rcases (next a).run tray with ⟨_ | b, tray, later⟩
    · rfl
    · simp [List.append_assoc]

instance : LawfulMonad (Play σ) := .mk' (Play σ) id_map_play pure_bind_play bind_assoc_play

end Play
end TabletopDice
