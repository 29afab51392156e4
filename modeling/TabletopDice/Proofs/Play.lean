import TabletopDice.Play

/-!
# Plays compared by result and tray

- `Play.only` drops some of the events of a play, and `Play.mute` all of them. They are morphisms of plays (`only_bind`,
  `mute_bind`), so two plays that differ only in what they tell are compared by an equation between muted plays;
- `Play.Yields` says that every value a play comes to has a property, `Play.Fails` that every fault does, and
  `Play.Tells` that every event does. Behind a play, the next ones need to agree only on values that it comes to
  (`bind_congr_of_yields`).
-/

namespace TabletopDice.Play

variable {σ α β : Type}

/-! ## Plays that tell less -/

/-- The play with only some of its events. -/
def only (keep : Event → Bool) (play : Play σ α) : Play σ α := fun tray =>
  ⟨(play.run tray).result, (play.run tray).tray, (play.run tray).events.filter keep⟩

section

variable {keep : Event → Bool}

theorem run_only (play : Play σ α) (tray : Tray σ) : (play.only keep).run tray =
    ⟨(play.run tray).result, (play.run tray).tray, (play.run tray).events.filter keep⟩ := rfl

@[simp] theorem only_pure (a : α) : (pure a : Play σ α).only keep = pure a := rfl

@[simp] theorem only_ofExcept (result : Except Fault α) : (ofExcept result : Play σ α).only keep = ofExcept result :=
  rfl

@[simp] theorem only_reset : (reset : Play σ Unit).only keep = reset := rfl

@[simp] theorem only_booked : (booked : Play σ UInt64).only keep = booked := rfl

theorem only_tell (event : Event) :
    (tell event : Play σ Unit).only keep = if keep event then tell event else pure () := by
  ext tray
  split <;> simp [run_only, *]

@[simp] theorem only_bind (play : Play σ α) (next : α → Play σ β) :
    (play >>= next).only keep = play.only keep >>= fun a => (next a).only keep := by
  ext tray
  simp only [run_only, run_bind]
  rcases play.run tray with ⟨_ | a, tray', events⟩
  · rfl
  · simp [Outcome.after]

end

/-! ## Muted plays -/

/-- The play without its events. -/
def mute (play : Play σ α) : Play σ α := fun tray => ⟨(play.run tray).result, (play.run tray).tray, []⟩

theorem run_mute (play : Play σ α) (tray : Tray σ) :
    play.mute.run tray = ⟨(play.run tray).result, (play.run tray).tray, []⟩ := rfl

/-- A muted play tells of no event. -/
theorem mute_eq_only (play : Play σ α) : play.mute = play.only fun _ => false := by
  ext tray
  simp [run_mute, run_only]

@[simp] theorem mute_pure (a : α) : (pure a : Play σ α).mute = pure a := rfl

@[simp] theorem mute_ofExcept (result : Except Fault α) : (ofExcept result : Play σ α).mute = ofExcept result := rfl

@[simp] theorem mute_tell (event : Event) : (tell event : Play σ Unit).mute = pure () := rfl

@[simp] theorem mute_reset : (reset : Play σ Unit).mute = reset := rfl

@[simp] theorem mute_booked : (booked : Play σ UInt64).mute = booked := rfl

@[simp] theorem mute_roll [Roller σ] (dice : Dice) : (roll dice : Play σ UInt64).mute = roll dice := by
  ext tray
  simp [run_mute]

@[simp] theorem mute_bind (play : Play σ α) (next : α → Play σ β) :
    (play >>= next).mute = play.mute >>= fun a => (next a).mute := by
  simp only [mute_eq_only, only_bind]

@[simp] theorem mute_map (f : α → β) (play : Play σ α) : (f <$> play).mute = f <$> play.mute := by
  simp only [map_eq_pure_bind, mute_bind, mute_pure]

/-- A value looked at and put to no use is as good as none. -/
@[simp] theorem booked_bind (play : Play σ β) : (booked >>= fun _ => play) = play := by
  ext tray
  simp [run_bind, Outcome.after]

/-! ## Failing plays -/

@[simp] theorem ofExcept_ok (a : α) : (ofExcept (.ok a) : Play σ α) = pure a := rfl

theorem ofExcept_bind (result : Except Fault α) (next : α → Except Fault β) :
    (ofExcept (result >>= next) : Play σ β) = ofExcept result >>= fun a => ofExcept (next a) := by
  cases result with
  | error fault => rfl
  | ok a => rw [ofExcept_ok, pure_bind]; rfl

/-- To go on from an attempt, or to fail as it did, is to go on from the play itself. -/
theorem attempt_bind (play : Play σ α) {next : Except Fault α → Play σ β}
    (hfail : ∀ fault, next (.error fault) = fail fault) : play.attempt >>= next = play >>= fun a => next (.ok a) := by
  ext tray
  simp only [run_bind, run_attempt]
  rcases play.run tray with ⟨fault | a, tray', events⟩
  · simp [hfail, Outcome.after]
  · rfl

/-! ## The values of a play -/

/-- Every value that the play comes to has the property. -/
def Yields (play : Play σ α) (p : α → Prop) : Prop := ∀ tray a, (play.run tray).result = .ok a → p a

theorem yields_pure {p : α → Prop} {a : α} (h : p a) : (pure a : Play σ α).Yields p := by
  rintro tray _ ⟨rfl⟩
  exact h

/-- The values of plays in a row are values of the last one. -/
theorem Yields.bind {play : Play σ α} {next : α → Play σ β} {p : α → Prop} {q : β → Prop} (h : play.Yields p)
    (hnext : ∀ a, p a → (next a).Yields q) : (play >>= next).Yields q := by
  intro tray b hb
  rw [run_bind] at hb
  have hp := h tray
  rcases hrun : play.run tray with ⟨_ | a, tray', events⟩
  · rw [hrun] at hb; cases hb
  · rw [hrun] at hb hp
    exact hnext a (hp a rfl) tray' b hb

/-- A play has all its values without some of its events, too. -/
theorem Yields.only {play : Play σ α} {p : α → Prop} (h : play.Yields p) (keep : Event → Bool) :
    (play.only keep).Yields p := h

theorem yields_true (play : Play σ α) : play.Yields fun _ => True := fun _ _ _ => trivial

/-- What follows a play matters only on the values that it comes to. -/
theorem bind_congr_of_yields {play : Play σ α} {p : α → Prop} {next next' : α → Play σ β} (h : play.Yields p)
    (hnext : ∀ a, p a → next a = next' a) : play >>= next = play >>= next' := by
  ext tray
  simp only [run_bind]
  have hp := h tray
  rcases hrun : play.run tray with ⟨_ | a, tray', events⟩
  · rfl
  · rw [hrun] at hp
    simp only [hnext a (hp a rfl)]

/-- A play continues on the tray that its first part leaves. -/
theorem run_bind_of_ok {play : Play σ α} {tray : Tray σ} {a : α} (h : (play.run tray).result = .ok a)
    (next : α → Play σ β) :
    (play >>= next).run tray = ((next a).run (play.run tray).tray).after (play.run tray).events := by
  rw [run_bind]
  rcases hrun : play.run tray with ⟨_ | b, tray', events⟩
  · rw [hrun] at h; cases h
  · rw [hrun] at h
    obtain rfl := Except.ok.inj h
    rfl

/-- Plays in a row come to a value if each of them does. -/
theorem bind_eq_ok {play : Play σ α} {next : α → Play σ β} {tray : Tray σ} {b : β}
    (h : ((play >>= next).run tray).result = .ok b) :
    ∃ a, (play.run tray).result = .ok a ∧ ((next a).run (play.run tray).tray).result = .ok b := by
  rw [run_bind] at h
  rcases hrun : play.run tray with ⟨_ | a, tray', events⟩
  · rw [hrun] at h; cases h
  · rw [hrun] at h
    exact ⟨a, rfl, h⟩

/-! ## The faults of a play -/

/-- Every fault that the play ends in has the property. -/
def Fails (play : Play σ α) (p : Fault → Prop) : Prop :=
  ∀ tray fault, (play.run tray).result = .error fault → p fault

theorem Fails.mono {play : Play σ α} {p q : Fault → Prop} (h : play.Fails p) (hpq : ∀ fault, p fault → q fault) :
    play.Fails q := fun tray fault hfault => hpq fault (h tray fault hfault)

theorem fails_fail {p : Fault → Prop} {fault : Fault} (h : p fault) : (fail fault : Play σ α).Fails p := by
  rintro tray _ ⟨rfl⟩
  exact h

theorem fails_tell {p : Fault → Prop} (event : Event) : (tell event : Play σ Unit).Fails p := fun _ _ h => by cases h

theorem fails_ofExcept {p : Fault → Prop} {result : Except Fault α} (h : ∀ fault, result = .error fault → p fault) :
    (ofExcept result : Play σ α).Fails p := fun _ fault hfault => h fault hfault

/-- The faults of plays in a row are faults of the first one, or of one that follows a value of it. -/
theorem Fails.bind {play : Play σ α} {next : α → Play σ β} {p : Fault → Prop} {q : α → Prop} (h : play.Fails p)
    (hvalue : play.Yields q) (hnext : ∀ a, q a → (next a).Fails p) : (play >>= next).Fails p := by
  intro tray fault hfault
  rw [run_bind] at hfault
  have hp := h tray
  have hq := hvalue tray
  rcases hrun : play.run tray with ⟨fault' | a, tray', events⟩
  · rw [hrun] at hfault hp
    cases hfault
    exact hp fault rfl
  · rw [hrun] at hfault hq
    exact hnext a (hq a rfl) tray' fault hfault

/-! ## The events of a play -/

/-- Every event that the play tells has the property, also if it fails. -/
def Tells (play : Play σ α) (p : Event → Prop) : Prop := ∀ tray, ∀ event ∈ (play.run tray).events, p event

variable {p : Event → Prop}

theorem Tells.mono {q : Event → Prop} {play : Play σ α} (h : play.Tells p) (hpq : ∀ event, p event → q event) :
    play.Tells q := fun tray event hevent => hpq event (h tray event hevent)

theorem tells_pure (a : α) : (pure a : Play σ α).Tells p := fun _ _ h => by cases h

theorem tells_fail (fault : Fault) : (fail fault : Play σ α).Tells p := fun _ _ h => by cases h

theorem tells_ofExcept (result : Except Fault α) : (ofExcept result : Play σ α).Tells p := fun _ _ h => by cases h

theorem tells_roll [Roller σ] (dice : Dice) : (roll dice : Play σ UInt64).Tells p := by
  intro tray event h
  rw [run_roll] at h
  cases h

theorem tells_tell {event : Event} (h : p event) : (tell event : Play σ Unit).Tells p := by
  intro tray e he
  rw [List.mem_singleton.mp he]
  exact h

/-- Plays in a row tell what each of them tells. -/
theorem Tells.bind {play : Play σ α} {next : α → Play σ β} (h : play.Tells p) (hnext : ∀ a, (next a).Tells p) :
    (play >>= next).Tells p := by
  intro tray event he
  rw [run_bind] at he
  have hp := h tray
  rcases hrun : play.run tray with ⟨_ | a, tray', events⟩
  · rw [hrun] at he hp; exact hp event he
  · rw [hrun] at he hp
    rcases List.mem_append.mp he with he | he
    · exact hp event he
    · exact hnext a tray' event he

end TabletopDice.Play
