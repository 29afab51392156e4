import TabletopDice.Proofs.Budget
import TabletopDice.Proofs.Faces
import TabletopDice.Roller.Replay
import TabletopDice.Session

/-!
# Dice booked and faces shown

A tray books dice before it rolls them. Here the faces that the roller shows are counted beside the bookings, through
plays and through whole sessions.

- A map of rollers that carries the faces of dice over carries all plays of the machine over (`parametric_carries`). So
  to count faces changes nothing: a session with a counted roller is the session with the roller itself, provided that
  the roller rolls several dice one after the other (`Session.run_uncounted`);
- dice are cut short if their sum becomes too large in front of their last face (`Dice.CutShort`). These are the dice
  that show fewer faces than there are dice, and no others are (`Dice.drawn_faces_eq_iff`);
- `Tray.Covers` compares two trays: what has been taken between them are dice, of which at most the last ones are cut
  short. It holds along every play (`parametric_covered`), because a roll books its dice first (`covered_roll`);
- an `Era` of a session goes back to where all booked dice were last taken back. Each step keeps the account of it
  (`Session.InEra.step`), so every session does (`Session.InEra.after`).
-/

namespace TabletopDice

section

variable {σ : Type}

/-! ## Booking -/

/-- The most dice that can be booked in a tray. -/
def Tray.limit (tray : Tray σ) : Nat := tray.budget.elim (UInt64.size - 1) UInt64.toNat

/-- **Dice are refused exactly if there would be more than the limit.** -/
theorem Tray.book_eq_none_iff {tray : Tray σ} {count : UInt64} :
    tray.book count = none ↔ tray.limit < tray.booked.toNat + count.toNat := by
  have hsize : UInt64.size = 18446744073709551616 := rfl
  rw [book, limit]
  cases hfit : fit? (tray.booked.toNat + count.toNat) with
  | none =>
    have hlarge := fit?_eq_none_iff.mp hfit
    cases tray.budget with
    | none => simp only [true_iff, Option.elim_none]; omega
    | some most =>
      have := most.toNat_lt
      simp only [true_iff, Option.elim_some]; omega
  | some booked =>
    have hbooked := fit?_eq_some_iff.mp hfit
    have := booked.toNat_lt
    rw [← hbooked]
    cases hbudget : tray.budget with
    | none => simp only [allows, hbudget, if_true, reduceCtorEq, false_iff, Option.elim_none]; omega
    | some most => simp [allows, hbudget, UInt64.le_iff_toNat_le]

/-- Dice that are not refused are added to those booked, within the budget. -/
theorem Tray.book_eq_some {tray booked : Tray σ} {count : UInt64} (h : tray.book count = some booked) :
    booked.roller = tray.roller ∧ booked.budget = tray.budget ∧
      booked.booked.toNat = tray.booked.toNat + count.toNat ∧
      ∀ most, tray.budget = some most → booked.booked ≤ most := by
  rw [book] at h
  cases hfit : fit? (tray.booked.toNat + count.toNat) with
  | none => rw [hfit] at h; cases h
  | some n =>
    rw [hfit] at h
    by_cases hallows : tray.allows n
    · simp only [hallows, if_true] at h
      obtain rfl := Option.some.inj h
      refine ⟨rfl, rfl, fit?_eq_some_iff.mp hfit, fun most hmost => ?_⟩
      simpa [allows, hmost] using hallows
    · simp only [hallows] at h
      cases h

variable [Roller σ]

/-- Dice that have been booked are drawn; their sum may be too large. -/
theorem Tray.roll_of_book {tray booked : Tray σ} {dice : Dice} (h : tray.book dice.count = some booked) :
    tray.roll dice = ((dice.faces booked.roller).1.elim (.error .overflow) .ok,
      { booked with roller := (dice.faces booked.roller).2 }) := by
  rw [roll, h]
  simp only [draw_eq]
  cases (dice.faces booked.roller).1 <;> rfl

theorem Tray.roll_of_no_book {tray : Tray σ} {dice : Dice} (h : tray.book dice.count = none) :
    tray.roll dice = (.error .tooManyDice, tray) := by
  rw [roll, h]

/-- **A roll refuses dice exactly if there would be more than the limit**, and leaves the tray alone then. -/
theorem Tray.roll_refused_iff (tray : Tray σ) (dice : Dice) :
    ((tray.roll dice).1 = .error .tooManyDice ↔ tray.limit < tray.booked.toNat + dice.count.toNat) ∧
      ((tray.roll dice).1 = .error .tooManyDice → (tray.roll dice).2 = tray) := by
  rw [← book_eq_none_iff]
  cases hbook : tray.book dice.count with
  | none => simp [roll_of_no_book hbook]
  | some booked =>
    rw [roll_of_book hbook]
    cases (dice.faces booked.roller).1 <;> simp

end

section

variable {σ τ α β : Type} {f : σ → τ}

/-! ## Plays with another roller -/

/-- The tray with the roller that a map gives. -/
def Tray.mapRoller (f : σ → τ) (tray : Tray σ) : Tray τ := ⟨f tray.roller, tray.booked, tray.budget⟩

/-- The outcome with the roller that a map gives. -/
def Outcome.mapRoller (f : σ → τ) (outcome : Outcome σ α) : Outcome τ α :=
  ⟨outcome.result, outcome.tray.mapRoller f, outcome.events⟩

/-- A map of rollers carries the outcomes of the first play over to the second one. -/
def Play.Carries (f : σ → τ) (play : Play σ α) (image : Play τ α) : Prop :=
  ∀ tray, image.run (tray.mapRoller f) = (play.run tray).mapRoller f

theorem carries_bind {play : Play σ α} {image : Play τ α} {next : α → Play σ β} {next' : α → Play τ β}
    (h : Play.Carries f play image) (hnext : ∀ a, Play.Carries f (next a) (next' a)) :
    Play.Carries f (play >>= next) (image >>= next') := by
  intro tray
  rw [Play.run_bind, Play.run_bind, h tray]
  rcases play.run tray with ⟨fault | a, tray', events⟩
  · rfl
  · simp only [Outcome.mapRoller, hnext a tray']
    rfl

theorem Tray.book_mapRoller (f : σ → τ) (tray : Tray σ) (count : UInt64) :
    (tray.mapRoller f).book count = (tray.book count).map (mapRoller f) := by
  have hbooked : (tray.mapRoller f).booked = tray.booked := rfl
  have hallows : ∀ n, (tray.mapRoller f).allows n = tray.allows n := fun _ => rfl
  simp only [book, hbooked, hallows]
  cases fit? (tray.booked.toNat + count.toNat) with
  | none => rfl
  | some booked =>
    simp only
    cases tray.allows booked <;> rfl

variable [Roller σ] [Roller τ]

/-- A map carries rolls over if it carries the faces of dice over. -/
theorem carries_roll (hfaces : ∀ (dice : Dice) (s : σ), dice.faces (f s) = ((dice.faces s).1, f (dice.faces s).2))
    (dice : Dice) : Play.Carries f (Play.roll dice) (Play.roll dice) := by
  intro tray
  have hbook := tray.book_mapRoller f dice.count
  rw [Play.run_roll, Play.run_roll]
  cases h : tray.book dice.count with
  | none =>
    rw [h] at hbook
    rw [Tray.roll_of_no_book h, Tray.roll_of_no_book hbook]
    rfl
  | some booked =>
    rw [h] at hbook
    rw [Tray.roll_of_book h, Tray.roll_of_book hbook]
    simp only [Tray.mapRoller, hfaces]
    rfl

/-- **And so it carries all plays of the machine over.** -/
theorem parametric_carries
    (hfaces : ∀ (dice : Dice) (s : σ), dice.faces (f s) = ((dice.faces s).1, f (dice.faces s).2)) :
    Play.Parametric fun (p : Play σ _) (q : Play τ _) => Play.Carries f p q where
  ofExcept _ _ := rfl
  tell _ _ _ := rfl
  booked _ := rfl
  throw dice := carries_bind (carries_roll hfaces dice) fun _ => carries_bind (fun _ => rfl) fun _ _ => rfl
  bind := carries_bind

end

section

variable {σ α : Type}

/-! ## Counted faces -/

/-- The tray with the faces not counted. -/
def Tray.uncounted (tray : Tray (Counted σ)) : Tray σ := ⟨tray.roller.roller, tray.booked, tray.budget⟩

/-- The outcome with the faces not counted. -/
def Outcome.uncounted (outcome : Outcome (Counted σ) α) : Outcome σ α :=
  ⟨outcome.result, outcome.tray.uncounted, outcome.events⟩

/-- The session with the faces not counted. -/
def Session.uncounted (session : Session (Counted σ)) : Session σ := ⟨session.tray.uncounted, session.buffer⟩

/-- The first play, counting faces, has the outcome of the second one. -/
def Play.Uncounts (play : Play (Counted σ) α) (bare : Play σ α) : Prop :=
  ∀ tray, bare.run tray.uncounted = (play.run tray).uncounted

theorem uncounts_attempt {play : Play (Counted σ) α} {bare : Play σ α} (h : play.Uncounts bare) :
    play.attempt.Uncounts bare.attempt := by
  intro tray
  rw [Play.run_attempt, Play.run_attempt, h tray]
  rfl

theorem Session.perform_uncounted {play : Play (Counted σ) α} {bare : Play σ α} (h : play.Uncounts bare)
    (session : Session (Counted σ)) (answer : α → Answer) :
    session.uncounted.perform bare answer =
      ((session.perform play answer).1, (session.perform play answer).2.uncounted) := by
  simp only [perform, uncounted, h session.tray]
  rfl

variable [Roller σ]

/-- A roller that rolls several dice one after the other, and adds their faces. -/
def SumsRolls (σ : Type) [Roller σ] : Prop :=
  ∀ (n : Nat) (die : Die) (s : σ), Roller.rollMany n die s = sumDraws (Roller.roll die) n 0 s

theorem sumDraws_uncounted (die : Die) (n : Nat) (sum : UInt64) (c : Counted σ) :
    sumDraws (Roller.roll die) n sum c.roller =
      ((sumDraws (Roller.roll die) n sum c).1, (sumDraws (Roller.roll die) n sum c).2.roller) := by
  induction n generalizing sum c with
  | zero => rfl
  | succ n ih =>
    simp only [sumDraws, Roller.roll]
    cases fit? (sum.toNat + (Roller.roll die c.roller).1.toNat) with
    | none => rfl
    | some grown => exact ih grown ⟨_, c.drawn + 1⟩

/-- A draw shows a face for each of its dice, unless the sum becomes too large before. -/
theorem drawn_sumDraws (die : Die) (n : Nat) (sum : UInt64) (c : Counted σ) :
    (sumDraws (Roller.roll die) n sum c).2.drawn ≤ c.drawn + n ∧
      ((sumDraws (Roller.roll die) n sum c).1 ≠ none →
        (sumDraws (Roller.roll die) n sum c).2.drawn = c.drawn + n) := by
  induction n generalizing sum c with
  | zero => exact ⟨Nat.le_refl _, fun _ => rfl⟩
  | succ n ih =>
    simp only [sumDraws, Roller.roll]
    cases fit? (sum.toNat + (Roller.roll die c.roller).1.toNat) with
    | none => exact ⟨by show c.drawn + 1 ≤ c.drawn + (n + 1); omega, fun h => absurd rfl h⟩
    | some grown =>
      have hrest := ih grown ⟨(Roller.roll die c.roller).2, c.drawn + 1⟩
      rw [Nat.add_assoc, Nat.add_comm 1 n] at hrest
      exact hrest

/-- It shows a face for each of its dice exactly if the sum fits as long as there are faces to come. -/
theorem drawn_sumDraws_eq_iff (die : Die) (n : Nat) (sum : UInt64) (c : Counted σ) :
    (sumDraws (Roller.roll die) n sum c).2.drawn = c.drawn + n ↔
      ∀ k < n, sum.toNat + ((drawFaces (Roller.roll die) k c).map UInt64.toNat).sum < UInt64.size := by
  induction n generalizing sum c with
  | zero => exact iff_of_true rfl fun k hk => absurd hk (Nat.not_lt_zero k)
  | succ n ih =>
    have hzero : sum.toNat + ((drawFaces (Roller.roll die) 0 c).map UInt64.toNat).sum < UInt64.size := sum.toNat_lt
    have hsucc (k : Nat) : sum.toNat + ((drawFaces (Roller.roll die) (k + 1) c).map UInt64.toNat).sum =
        sum.toNat + (Roller.roll die c).1.toNat +
          ((drawFaces (Roller.roll die) k (Roller.roll die c).2).map UInt64.toNat).sum := by
      rw [drawFaces, List.map_cons, List.sum_cons, Nat.add_assoc]
    have hdrawn : (Roller.roll die c).2.drawn = c.drawn + 1 := rfl
    rw [Nat.forall_lt_succ_left, and_iff_right hzero]
    simp only [sumDraws, hsucc]
    cases hfit : fit? (sum.toNat + (Roller.roll die c).1.toNat) with
    | none =>
      -- the first face is the last one that is shown
      have hlarge := fit?_eq_none_iff.mp hfit
      cases n with
      | zero => exact iff_of_true hdrawn fun k hk => absurd hk (Nat.not_lt_zero k)
      | succ n =>
        refine iff_of_false (by simp only [hdrawn]; omega) fun hfits => ?_
        have hfirst := hfits 0 (Nat.succ_pos n)
        omega
    | some grown =>
      have hrest := ih grown (Roller.roll die c).2
      rwa [fit?_eq_some_iff.mp hfit, hdrawn, Nat.add_assoc, Nat.add_comm 1] at hrest

/-- Dice show the same, counted or not. -/
theorem Dice.faces_uncounted (hsums : SumsRolls σ) (dice : Dice) (c : Counted σ) :
    dice.faces c.roller = ((dice.faces c).1, (dice.faces c).2.roller) := by
  simp only [faces, Tray.draw]
  split
  · rfl
  · have hmany := hsums dice.count.toNat dice.die c.roller
    rw [sumDraws_uncounted] at hmany
    simp only [hmany]
    rfl

/-- **Dice show a face each**, unless their sum becomes too large before. -/
theorem Dice.drawn_faces (dice : Dice) (c : Counted σ) :
    (dice.faces c).2.drawn ≤ c.drawn + dice.count.toNat ∧
      ((dice.faces c).1 ≠ none → (dice.faces c).2.drawn = c.drawn + dice.count.toNat) := by
  simp only [faces, Tray.draw]
  split
  · rename_i hone
    rw [hone]
    exact ⟨Nat.le_refl _, fun _ => rfl⟩
  · exact drawn_sumDraws dice.die dice.count.toNat 0 c

/-- The sum of the faces becomes too large in front of the last one, and the roller shows no more of them. -/
def Dice.CutShort (dice : Dice) (s : σ) : Prop :=
  ∃ n < dice.count.toNat, UInt64.size ≤ ((drawFaces (Roller.roll dice.die) n s).map UInt64.toNat).sum

/-- **Dice show a face each exactly if they are not cut short.** -/
theorem Dice.drawn_faces_eq_iff (dice : Dice) (c : Counted σ) :
    (dice.faces c).2.drawn = c.drawn + dice.count.toNat ↔ ¬ dice.CutShort c := by
  have hcut : ¬ dice.CutShort c ↔ ∀ k < dice.count.toNat,
      ((drawFaces (Roller.roll dice.die) k c).map UInt64.toNat).sum < UInt64.size := by
    simp only [CutShort, not_exists, not_and, Nat.not_le]
  rw [hcut]
  simp only [faces, Tray.draw]
  split
  · rename_i hone
    rw [hone]
    refine iff_of_true rfl fun k hk => ?_
    obtain rfl : k = 0 := Nat.lt_one_iff.mp hk
    exact Nat.two_pow_pos 64
  · have hmany := drawn_sumDraws_eq_iff dice.die dice.count.toNat 0 c
    simp only [UInt64.toNat_zero, Nat.zero_add] at hmany
    exact hmany

/-! ## Counting changes nothing -/

theorem uncounts_roll (hsums : SumsRolls σ) (dice : Dice) :
    (Play.roll dice : Play (Counted σ) UInt64).Uncounts (Play.roll dice) :=
  carries_roll (Dice.faces_uncounted hsums) dice

/-- **To count faces changes no play of the machine.** -/
theorem parametric_uncounts (hsums : SumsRolls σ) :
    Play.Parametric fun (p : Play (Counted σ) _) (q : Play σ _) => p.Uncounts q :=
  parametric_carries (Dice.faces_uncounted hsums)

theorem uncounts_evaluate (hsums : SumsRolls σ) (t : Text) :
    (evaluate t : Play (Counted σ) UInt64).Uncounts (evaluate t) := by
  rw [evaluate_eq_reset_bind, evaluate_eq_reset_bind]
  exact carries_bind (fun _ => rfl) fun _ => (parametric_uncounts hsums).counting t

namespace Session

/-- A step takes no notice of the count. -/
theorem step_uncounted (hsums : SumsRolls σ) (session : Session (Counted σ)) (s : Step) :
    session.uncounted.step s = ((session.step s).1, (session.step s).2.uncounted) := by
  have hplays := parametric_uncounts hsums
  cases s with
  | set text => rfl
  | reset => rfl
  | pass =>
    simp only [step, uncounted, hplays.onePass session.buffer session.tray]
    rfl
  | resolve =>
    simp only [step, uncounted, hplays.resolveGroups uncounts_attempt session.buffer session.tray]
    rcases (resolveGroups session.buffer).run session.tray with ⟨_ | ⟨buffer, _ | fault⟩, tray, events⟩ <;> rfl
  | reduce => exact perform_uncounted (hplays.reduce _) session _
  | evaluate instruction => exact perform_uncounted (uncounts_evaluate hsums instruction) session _
  | roll dice => exact perform_uncounted (uncounts_roll hsums dice) session _
  | substitute rule text => exact perform_uncounted (hplays.valueOf rule text) session _

/-- **A session takes no notice of the count.** -/
theorem run_uncounted (hsums : SumsRolls σ) (session : Session (Counted σ)) (steps : List Step) :
    (session.run steps).map (fun taken => (taken.1, taken.2.uncounted)) = session.uncounted.run steps := by
  induction steps generalizing session with
  | nil => rfl
  | cons s steps ih =>
    have hstep := step_uncounted hsums session s
    simp only [run, List.map_cons, ih, hstep]

end Session

end

section

variable {σ α β : Type} [Roller σ]

/-! ## What bookings cover -/

/-- Dice show no more faces than there are dice. -/
theorem drawn_drawn_le (c : Counted σ) (dice : List Dice) : (drawn c dice).drawn ≤ c.drawn + diceCount dice := by
  induction dice generalizing c with
  | nil => exact Nat.le_refl _
  | cons d rest ih =>
    have hfirst := (d.drawn_faces c).1
    have hrest := ih (d.faces c).2
    rw [diceCount]
    exact Nat.le_trans hrest (by omega)

theorem Tray.Takes.drawn_le {tray tray' : Tray (Counted σ)} {dice : List Dice} (h : tray.Takes dice tray') :
    tray'.roller.drawn + tray.booked.toNat ≤ tray.roller.drawn + tray'.booked.toNat := by
  have hle := drawn_drawn_le tray.roller dice
  rw [h.roller, h.booked]
  omega

/-- Dice have been taken between the trays, and the last ones of them were cut short. -/
def Tray.CutsShort (tray tray' : Tray σ) : Prop :=
  ∃ front last, tray.Takes (front ++ [last]) tray' ∧ last.CutShort (drawn tray.roller front)

/-- If dice have been cut short, fewer faces have been shown than dice booked. -/
theorem Tray.CutsShort.drawn_lt {tray tray' : Tray (Counted σ)} (h : tray.CutsShort tray') :
    tray'.roller.drawn + tray.booked.toNat < tray.roller.drawn + tray'.booked.toNat := by
  obtain ⟨front, last, htakes, hcut⟩ := h
  have hfront := drawn_drawn_le tray.roller front
  have hle := (last.drawn_faces (drawn tray.roller front)).1
  have hne := mt (last.drawn_faces_eq_iff (drawn tray.roller front)).mp (not_not_intro hcut)
  have hroller : tray'.roller = (last.faces (drawn tray.roller front)).2 := by
    rw [htakes.roller, drawn, List.foldl_append]
    rfl
  have hbooked := htakes.booked
  rw [diceCount_append, diceCount, diceCount] at hbooked
  rw [hroller]
  omega

/-- What has been taken between the trays are dice, within the budget. All their faces have been shown, unless the sum
of the last ones has become too large and cut them short. -/
structure Tray.Covers (tray tray' : Tray (Counted σ)) (overflows : Prop) : Prop where
  takes : ∃ dice, tray.Takes dice tray'
  shown : tray'.roller.drawn + tray.booked.toNat = tray.roller.drawn + tray'.booked.toNat ∨
    overflows ∧ tray.CutsShort tray'
  within : (∀ most, tray.budget = some most → tray.booked ≤ most) →
    ∀ most, tray.budget = some most → tray'.booked ≤ most

namespace Tray

theorem covers_refl (tray : Tray (Counted σ)) (overflows : Prop) : tray.Covers tray overflows :=
  ⟨⟨[], tray.takes_nil⟩, Or.inl rfl, id⟩

namespace Covers

variable {tray tray' tray'' : Tray (Counted σ)} {overflows : Prop}

theorem budget (h : tray.Covers tray' overflows) : tray'.budget = tray.budget := by
  obtain ⟨dice, htakes⟩ := h.takes
  exact htakes.budget

theorem drawn_le (h : tray.Covers tray' overflows) :
    tray'.roller.drawn + tray.booked.toNat ≤ tray.roller.drawn + tray'.booked.toNat := by
  obtain ⟨dice, htakes⟩ := h.takes
  exact htakes.drawn_le

/-- As many faces have been shown as dice booked exactly if none were cut short. -/
theorem drawn_eq_iff (h : tray.Covers tray' overflows) :
    tray'.roller.drawn + tray.booked.toNat = tray.roller.drawn + tray'.booked.toNat ↔
      ¬ (overflows ∧ tray.CutsShort tray') := by
  refine ⟨fun heq hcut => ?_, fun hnot => h.shown.resolve_right hnot⟩
  have hlt := hcut.2.drawn_lt
  omega

theorem trans (h : tray.Covers tray' False) (h' : tray'.Covers tray'' overflows) : tray.Covers tray'' overflows := by
  obtain ⟨dice, htakes⟩ := h.takes
  obtain ⟨dice', htakes'⟩ := h'.takes
  have hfirst := h.shown.resolve_right And.left
  refine ⟨⟨dice ++ dice', htakes.append htakes'⟩, ?_, fun hwithin => ?_⟩
  · rcases h'.shown with hrest | ⟨hoverflows, front, last, hlast, hcut⟩
    · exact Or.inl (by omega)
    · refine Or.inr ⟨hoverflows, dice ++ front, last, ?_, ?_⟩
      · rw [List.append_assoc]
        exact htakes.append hlast
      · rw [htakes.roller] at hcut
        rwa [drawn, List.foldl_append]
  · rw [← h.budget]
    exact h'.within (by rw [h.budget]; exact h.within hwithin)

end Covers

end Tray

/-- The bookings of the play cover the faces shown in it. Only a sum that is too large cuts off the faces of dice that
have been booked. -/
def Play.Covered (play : Play (Counted σ) α) : Prop :=
  ∀ tray : Tray (Counted σ), tray.Covers (play.run tray).tray ((play.run tray).result = .error .overflow)

theorem covered_bind {play : Play (Counted σ) α} {next : α → Play (Counted σ) β} (h : play.Covered)
    (hnext : ∀ a, (next a).Covered) : (play >>= next).Covered := by
  intro tray
  have hplay := h tray
  rw [Play.run_bind]
  rcases hrun : play.run tray with ⟨fault | a, tray', events⟩
  · rw [hrun] at hplay
    simpa using hplay
  · rw [hrun] at hplay
    have hfirst : tray.Covers tray' False := by simpa using hplay
    exact hfirst.trans (hnext a tray')

theorem Session.covers_perform {tray : Tray (Counted σ)} {session : Session (Counted σ)} {play : Play (Counted σ) α}
    (h : tray.Covers (play.run session.tray).tray ((play.run session.tray).result = .error .overflow))
    (answer : α → Answer) : tray.Covers (session.perform play answer).2.tray
      ((session.perform play answer).1 = .error .overflow) := by
  simp only [perform]
  rcases hrun : play.run session.tray with ⟨fault | a, tray', events⟩ <;> simpa [hrun, Except.map] using h

/-- **A roll books its dice before it shows a face.** -/
theorem covered_roll (dice : Dice) : (Play.roll dice : Play (Counted σ) UInt64).Covered := by
  intro tray
  rw [Play.run_roll]
  cases hbook : tray.book dice.count with
  | none =>
    rw [Tray.roll_of_no_book hbook]
    exact tray.covers_refl _
  | some booked =>
    obtain ⟨hroller, hbudget, hbooked, hwithin⟩ := Tray.book_eq_some hbook
    have hshown := (dice.drawn_faces tray.roller).2
    have hcount := dice.drawn_faces_eq_iff tray.roller
    have htakes : tray.Takes [dice] { booked with roller := (dice.faces tray.roller).2 } :=
      ⟨rfl, by simpa [diceCount] using hbooked, hbudget⟩
    rw [Tray.roll_of_book hbook, hroller]
    refine ⟨⟨[dice], htakes⟩, ?_, fun _ => hwithin⟩
    by_cases hcut : dice.CutShort tray.roller
    · have hsum : (dice.faces tray.roller).1 = none :=
        Decidable.byContradiction fun hne => hcount.mp (hshown hne) hcut
      exact Or.inr ⟨by simp [hsum], [], dice, htakes, hcut⟩
    · have hall := hcount.mpr hcut
      simp only [hbooked]
      exact Or.inl (by omega)

/-- **Bookings cover the faces of all plays of the machine**, up to where they take dice back. -/
theorem parametric_covered :
    Play.Parametric fun (p : Play (Counted σ) _) (_ : Play (Counted σ) _) => p.Covered where
  ofExcept _ tray := Tray.covers_refl tray _
  tell _ _ tray := Tray.covers_refl tray _
  booked tray := Tray.covers_refl tray _
  throw dice := covered_bind (covered_roll dice) fun _ =>
    covered_bind (fun tray => Tray.covers_refl tray _) fun _ tray => Tray.covers_refl tray _
  bind := covered_bind

/-- The tray of a resolution is that of its finish, and the fault that ended it is the fault of its finish. -/
theorem run_finished (t : Text) (tray : Tray σ) :
    (resolveGroups t >>= Resolution.finished).run tray =
      { result := ((resolveGroups t).run tray).result.bind fun r => r.fault.elim (.ok r.buffer) .error
        tray := ((resolveGroups t).run tray).tray
        events := ((resolveGroups t).run tray).events } := by
  rw [Play.run_bind]
  rcases (resolveGroups t).run tray with ⟨fault | ⟨buffer, _ | fault⟩, tray', events⟩
  · rfl
  · simp [Resolution.finished, Outcome.after, Except.bind]
  · simp [Resolution.finished, Outcome.after, Except.bind]

end

section

variable {σ : Type}

/-! ## Eras of a session -/

/-- Evaluations and resets take all booked dice back. -/
def Step.restarts : Step → Bool
  | evaluate _ => true
  | reset => true
  | _ => false

namespace Session

/-- The tray in which a step begins to roll. -/
def trayFor (session : Session σ) (s : Step) : Tray σ := if s.restarts then session.tray.reset else session.tray

/-- The time since all booked dice were last taken back: how many faces had been shown before, and whether dice have
been cut short since. -/
structure Era where
  before : Nat := 0
  cutShort : Prop := False

/-- What bookings say about a session in an era: they cover the faces shown in it, count them exactly if no dice have
been cut short, and are within the budget. -/
structure InEra (session : Session (Counted σ)) (era : Era) : Prop where
  drawn_le : session.tray.roller.drawn ≤ era.before + session.tray.booked.toNat
  drawn_eq_iff : session.tray.roller.drawn = era.before + session.tray.booked.toNat ↔ ¬ era.cutShort
  within : ∀ most, session.tray.budget = some most → session.tray.booked ≤ most

/-- A session begins with nothing booked and nothing shown. -/
theorem inEra_start (s : σ) (budget : Option UInt64) (buffer : Text) :
    (⟨⟨⟨s, 0⟩, 0, budget⟩, buffer⟩ : Session (Counted σ)).InEra {} :=
  ⟨Nat.le_refl _, iff_of_true rfl id, fun _ _ => UInt64.le_iff_toNat_le.mpr (Nat.zero_le _)⟩

variable [Roller σ]

/-- The session after steps. -/
def after (session : Session σ) (steps : List Step) : Session σ :=
  steps.foldl (fun session s => (session.step s).2) session

/-- Each step is taken in the session that the steps before it leave. -/
theorem run_concat (session : Session σ) (steps : List Step) (s : Step) :
    session.run (steps ++ [s]) = session.run steps ++ [(session.after steps).step s] := by
  induction steps generalizing session with
  | nil => rfl
  | cons t steps ih => simp only [List.cons_append, run, ih]; rfl

/-- The step fails because a sum is too large, and that cuts the last dice short that it has taken. -/
def CutsShort (session : Session σ) (s : Step) : Prop :=
  (session.step s).1 = .error .overflow ∧ (session.trayFor s).CutsShort (session.step s).2.tray

/-- The era in which a step leaves the session. -/
def Era.next (era : Era) (session : Session (Counted σ)) (s : Step) : Era :=
  if s.restarts then ⟨session.tray.roller.drawn, session.CutsShort s⟩
  else ⟨era.before, era.cutShort ∨ session.CutsShort s⟩

/-- The era in which steps leave the session. -/
def era (session : Session (Counted σ)) (first : Era) : List Step → Era
  | [] => first
  | s :: rest => (session.step s).2.era (first.next session s) rest

/-- The bookings of a step cover the faces shown in it. -/
theorem covers_step (session : Session (Counted σ)) (s : Step) :
    (session.trayFor s).Covers (session.step s).2.tray ((session.step s).1 = .error .overflow) := by
  cases s with
  | set text => exact Tray.covers_refl _ _
  | reset => exact Tray.covers_refl _ _
  | pass =>
    have h := parametric_covered.onePass session.buffer session.tray
    simp only [step, trayFor, Step.restarts]
    rcases hrun : (onePass session.buffer).run session.tray with ⟨fault | pass, tray', events⟩ <;>
      simpa [hrun, Except.map] using h
  | resolve =>
    have h := parametric_covered.finished session.buffer session.tray
    rw [run_finished] at h
    simp only [step, trayFor, Step.restarts]
    rcases hrun : (resolveGroups session.buffer).run session.tray with ⟨_ | ⟨buffer, _ | fault⟩, tray', events⟩ <;>
      simpa [hrun, Except.bind] using h
  | reduce => exact covers_perform (parametric_covered.reduce _ _) _
  | evaluate instruction =>
    refine covers_perform ?_ _
    rw [evaluate_eq_reset_bind]
    exact parametric_covered.counting instruction session.tray.reset
  | roll dice => exact covers_perform (covered_roll dice _) _
  | substitute rule text => exact covers_perform (parametric_covered.valueOf rule text _) _

/-- **A step keeps the account of its era**, or begins a new one. -/
theorem InEra.step {session : Session (Counted σ)} {era : Era} (h : session.InEra era) (s : Step) :
    (session.step s).2.InEra (era.next session s) := by
  have hcovers := covers_step session s
  have hle := hcovers.drawn_le
  have heq : _ ↔ ¬ session.CutsShort s := hcovers.drawn_eq_iff
  have hbudget := hcovers.budget
  have hwithin := hcovers.within
  rw [trayFor] at hle heq hbudget hwithin
  rw [Era.next]
  cases hrestarts : s.restarts with
  | true =>
    rw [hrestarts, if_pos rfl] at hle heq hbudget hwithin
    refine ⟨by simpa [Tray.reset] using hle, by simpa [Tray.reset] using heq, ?_⟩
    rw [hbudget]
    exact hwithin fun _ _ => UInt64.le_iff_toNat_le.mpr (Nat.zero_le _)
  | false =>
    rw [hrestarts, if_neg Bool.false_ne_true] at hle heq hbudget hwithin
    have hdrawn := h.drawn_le
    rw [if_neg Bool.false_ne_true]
    refine ⟨by simp only; omega, ?_, ?_⟩
    · -- as many faces as dice, in the era before the step and in the step
      simp only [not_or, ← h.drawn_eq_iff, ← heq]
      omega
    · rw [hbudget]
      exact hwithin h.within

/-- **Steps keep the account of the era in which they leave a session.** -/
theorem InEra.after {session : Session (Counted σ)} {first : Era} (h : session.InEra first) (steps : List Step) :
    (session.after steps).InEra (session.era first steps) := by
  induction steps generalizing session first with
  | nil => exact h
  | cons s steps ih => exact ih (h.step s)

/-- No step changes the budget. -/
theorem budget_after (session : Session (Counted σ)) (steps : List Step) :
    (session.after steps).tray.budget = session.tray.budget := by
  induction steps generalizing session with
  | nil => rfl
  | cons s steps ih =>
    refine (ih (session.step s).2).trans ((covers_step session s).budget.trans ?_)
    rw [trayFor]
    split <;> rfl

end Session

/-! ## Bookings in a session -/

variable [Roller σ]

/-- **Bookings cover faces, within the budget, in every session.** To count faces changes no answer and no tray. After
any steps, no more faces have been shown since all booked dice were last taken back than dice are booked, and no more
dice are booked than the budget allows. A roll is refused exactly if there would be more dice than that, and nothing
changes then. -/
theorem session_bookings_cover (hsums : SumsRolls σ) (s : σ) (budget : Option UInt64) (buffer : Text)
    (steps : List Step) :
    let start : Session (Counted σ) := ⟨⟨⟨s, 0⟩, 0, budget⟩, buffer⟩
    let now := start.after steps
    (start.run steps).map (fun taken => (taken.1, taken.2.uncounted)) = start.uncounted.run steps ∧
      (∀ next, start.run (steps ++ [next]) = start.run steps ++ [now.step next]) ∧
      now.tray.roller.drawn ≤ (start.era {} steps).before + now.tray.booked.toNat ∧
      (∀ most, budget = some most → now.tray.booked ≤ most) ∧
      ∀ dice, ((now.step (.roll dice)).1 = .error .tooManyDice ↔
          budget.elim (UInt64.size - 1) UInt64.toNat < now.tray.booked.toNat + dice.count.toNat) ∧
        ((now.step (.roll dice)).1 = .error .tooManyDice → (now.step (.roll dice)).2 = now) := by
  intro start now
  have hera : now.InEra (start.era {} steps) := (Session.inEra_start s budget buffer).after steps
  have hbudget : now.tray.budget = budget := start.budget_after steps
  have hwithin := hera.within
  rw [hbudget] at hwithin
  refine ⟨start.run_uncounted hsums steps, start.run_concat steps, hera.drawn_le, hwithin, fun dice => ?_⟩
  have hrefused := now.tray.roll_refused_iff dice
  rw [Tray.limit, hbudget] at hrefused
  have hresult : (now.step (.roll dice)).1 = .error .tooManyDice ↔ (now.tray.roll dice).1 = .error .tooManyDice := by
    simp only [Session.step, Session.perform, Play.run_roll]
    cases (now.tray.roll dice).1 <;> simp [Except.map]
  rw [hresult]
  refine ⟨hrefused.1, fun hrefuse => ?_⟩
  simp only [Session.step, Session.perform, Play.run_roll, hrefused.2 hrefuse]

-- two dice are rolled, no dice are rolled, and two more dice are one too many
theorem session_bookings_cover_cycle :
    let start : Session (Counted Cycle) := ⟨⟨⟨⟨[4, 2], 0⟩, 0⟩, 0, some 3⟩, []⟩
    let now := start.after [.roll ⟨2, ⟨6, by decide⟩⟩, .roll ⟨0, ⟨6, by decide⟩⟩]
    SumsRolls Cycle ∧ now.tray.roller.drawn = 2 ∧ now.tray.booked = 2 ∧
      (now.step (.roll ⟨2, ⟨6, by decide⟩⟩)).1 = .error .tooManyDice ∧
      (now.step (.roll ⟨2, ⟨6, by decide⟩⟩)).2 = now := by
  have hsums : SumsRolls Cycle := fun _ _ _ => rfl
  have h := session_bookings_cover hsums ⟨[4, 2], 0⟩ (some 3) []
    [.roll ⟨2, ⟨6, by decide⟩⟩, .roll ⟨0, ⟨6, by decide⟩⟩]
  have hroll := h.2.2.2.2 ⟨2, ⟨6, by decide⟩⟩
  exact ⟨hsums, rfl, rfl, hroll.1.mpr (by decide), hroll.2 (hroll.1.mpr (by decide))⟩

/-- **Bookings count faces exactly as long as no dice are cut short.** To count faces changes no answer and no tray.
After any steps, as many dice are booked as faces have been shown since all booked dice were last taken back, unless one
of the steps since then has failed because the sum of its dice became too large in front of their last face; and then
there are fewer faces. -/
theorem session_bookings_count (hsums : SumsRolls σ) (s : σ) (budget : Option UInt64) (buffer : Text)
    (steps : List Step) :
    let start : Session (Counted σ) := ⟨⟨⟨s, 0⟩, 0, budget⟩, buffer⟩
    let now := start.after steps
    let era := start.era {} steps
    (start.run steps).map (fun taken => (taken.1, taken.2.uncounted)) = start.uncounted.run steps ∧
      (now.tray.roller.drawn = era.before + now.tray.booked.toNat ↔ ¬ era.cutShort) ∧
      (era.cutShort → now.tray.roller.drawn < era.before + now.tray.booked.toNat) := by
  intro start now era
  have hera : now.InEra era := (Session.inEra_start s budget buffer).after steps
  refine ⟨start.run_uncounted hsums steps, hera.drawn_eq_iff, fun hcut => ?_⟩
  exact Nat.lt_of_le_of_ne hera.drawn_le fun heq => hera.drawn_eq_iff.mp heq hcut

/-- Neither an operator nor a last face with which the sum becomes too large cuts dice short. -/
theorem session_bookings_count_cycle :
    let start : Session (Counted Fixed) := ⟨⟨⟨⟨18446744073709551615⟩, 0⟩, 0, none⟩, []⟩
    let steps : List Step := [.roll ⟨3, ⟨6, by decide⟩⟩, .reset, .roll ⟨2, ⟨18446744073709551615, by decide⟩⟩,
      .substitute (.binary .add) "18446744073709551615+1".toList]
    SumsRolls Fixed ∧ (start.run steps).map (fun taken => taken.1.toOption.isSome) = [true, true, false, false] ∧
      (start.after steps).tray.roller.drawn = (start.era {} steps).before + (start.after steps).tray.booked.toNat ∧
      (start.era {} steps).before = 3 ∧ ¬ (start.era {} steps).cutShort := by
  intro start steps
  have hsums : SumsRolls Fixed := fun _ _ _ => rfl
  refine ⟨hsums, by decide, by decide, by decide, ?_⟩
  exact (session_bookings_count hsums ⟨18446744073709551615⟩ none [] steps).2.1.mp (by decide)

/-- A sum that is too large at its second face leaves three dice booked, but only two faces shown. -/
theorem booked_ne_drawn_of_cut_off :
    let start : Session (Counted Fixed) := ⟨⟨⟨⟨18446744073709551615⟩, 0⟩, 0, none⟩, []⟩
    let now := start.after [.roll ⟨3, ⟨18446744073709551615, by decide⟩⟩]
    SumsRolls Fixed ∧ now.tray.booked = 3 ∧ now.tray.roller.drawn = 2 :=
  ⟨fun _ _ _ => rfl, by decide, by decide⟩

end
end TabletopDice
