import TabletopDice.Proofs.Parametric

/-!
# Evaluations within a budget

A budget changes nothing as long as it lasts, and once it does not, the evaluation stops in front of the dice that
exceed it.

- `Tray.Takes` says which dice have been booked and drawn between two trays. Draws look at nothing but the roller
  (`Tray.draw_eq`), so these dice fix what is left of the roller;
- `Play.Budgeted` compares the run of a play without a budget with its runs under all budgets. It holds for a roll of
  dice (`budgeted_throw`), and plays in a row have it if each of them has (`Budgeted.bind`): a budget that lasts for the
  first play is the same one for the rest, and one that does not has stopped the first play already;
- so all plays of the machine have it (`parametric_budgeted`), and evaluations are cut off (`evaluate_within_budget`).
-/

namespace TabletopDice

/-! ## Dice that a tray takes -/

/-- How many dice these are. -/
def diceCount : List Dice → Nat
  | [] => 0
  | d :: rest => d.count.toNat + diceCount rest

theorem diceCount_append (dice dice' : List Dice) : diceCount (dice ++ dice') = diceCount dice + diceCount dice' := by
  induction dice with
  | nil => exact (Nat.zero_add _).symm
  | cons d rest ih => rw [List.cons_append, diceCount, diceCount, ih, Nat.add_assoc]

/-- The dice of a roll, in the event that tells of it. -/
def Event.dice? : Event → Option Dice
  | rolled dice _ => some dice
  | _ => none

theorem Event.dice?_of_ne {event : Event} (h : ∀ dice total, event ≠ .rolled dice total) : event.dice? = none := by
  cases event with
  | rolled dice total => exact absurd rfl (h dice total)
  | _ => rfl

/-- The dice that events tell of, in their order. -/
def diceTold (events : List Event) : List Dice := events.filterMap Event.dice?

@[simp] theorem diceTold_append (r s : List Event) : diceTold (r ++ s) = diceTold r ++ diceTold s := by
  simp [diceTold]

section

variable {σ : Type}

/-- The tray with a budget. -/
def Tray.within (tray : Tray σ) (most : UInt64) : Tray σ := { tray with budget := some most }

/-- Without a budget, booking refuses only dice that cannot be counted. -/
theorem Tray.book_of_free {tray : Tray σ} (h : tray.budget = none) (count : UInt64) :
    tray.book count = (fit? (tray.booked.toNat + count.toNat)).map fun booked => { tray with booked } := by
  simp only [book, allows, h, if_true]
  cases fit? (tray.booked.toNat + count.toNat) <;> rfl

/-- With a budget, it refuses dice that the budget does not allow, too. -/
theorem Tray.book_within (tray : Tray σ) (count most : UInt64) :
    (tray.within most).book count = (fit? (tray.booked.toNat + count.toNat)).bind fun booked =>
      if booked ≤ most then some (Tray.within { tray with booked } most) else none := by
  simp only [book, allows, within, decide_eq_true_eq]
  cases fit? (tray.booked.toNat + count.toNat) <;> rfl

end

section

variable {σ α β : Type} [Roller σ]

/-- What a roller shows for dice, and what is left of it. -/
def Dice.faces (dice : Dice) (s : σ) : Option UInt64 × σ :=
  match (⟨s, 0, none⟩ : Tray σ).draw dice with
  | (sum, tray) => (sum, tray.roller)

/-- What is left of a roller behind dice. -/
def drawn (s : σ) (dice : List Dice) : σ := dice.foldl (fun s d => (d.faces s).2) s

/-- **Draws look at nothing but the roller.** -/
theorem Tray.draw_eq (tray : Tray σ) (dice : Dice) :
    tray.draw dice = ((dice.faces tray.roller).1, { tray with roller := drawn tray.roller [dice] }) := by
  simp only [drawn, Dice.faces, List.foldl_cons, List.foldl_nil, draw]
  split <;> rfl

/-- The first tray has booked and drawn these dice, and has become the second one. -/
structure Tray.Takes (tray : Tray σ) (dice : List Dice) (tray' : Tray σ) : Prop where
  roller : tray'.roller = drawn tray.roller dice
  booked : tray'.booked.toNat = tray.booked.toNat + diceCount dice
  budget : tray'.budget = tray.budget

theorem Tray.takes_nil (tray : Tray σ) : tray.Takes [] tray := ⟨rfl, rfl, rfl⟩

theorem Tray.Takes.append {tray tray' tray'' : Tray σ} {dice dice' : List Dice} (h : tray.Takes dice tray')
    (h' : tray'.Takes dice' tray'') : tray.Takes (dice ++ dice') tray'' where
  roller := by rw [h'.roller, h.roller, drawn, drawn, drawn, List.foldl_append]
  booked := by rw [h'.booked, h.booked, diceCount_append, Nat.add_assoc]
  budget := h'.budget.trans h.budget

/-- Whatever a tray takes, it takes with a budget, too: it is the booking that refuses dice. -/
theorem Tray.Takes.within {tray tray' : Tray σ} {dice : List Dice} (h : tray.Takes dice tray') (most : UInt64) :
    (tray.within most).Takes dice (tray'.within most) := ⟨h.roller, h.booked, rfl⟩

/-! ## Runs with and without a budget -/

/-- The outcome in a tray with a budget. -/
def Outcome.within (outcome : Outcome σ α) (most : UInt64) : Outcome σ α :=
  { outcome with tray := outcome.tray.within most }

/-- The dice of an outcome. It tells of all of them, except for the last ones if their sum has been too large. -/
structure Outcome.Rolls (outcome : Outcome σ α) (tray : Tray σ) (dice : List Dice) : Prop where
  takes : tray.Takes dice outcome.tray
  told : diceTold outcome.events = dice ∨ outcome.result = .error .overflow ∧
    ∃ last, dice = diceTold outcome.events ++ [last] ∧
      (last.faces (drawn tray.roller (diceTold outcome.events))).1 = none

/-- An outcome that is cut off where a budget is exceeded: it has rolled the dice `front`, and with the dice `next` there
would be more than the budget allows. -/
structure Outcome.CutOff (cut whole : Outcome σ α) (tray : Tray σ) (most : UInt64) (front : List Dice) (next : Dice) :
    Prop where
  result : cut.result = .error .tooManyDice
  takes : (tray.within most).Takes front cut.tray
  told : diceTold cut.events = front
  lasts : cut.tray.booked ≤ most
  exceeded : most.toNat < cut.tray.booked.toNat + next.count.toNat
  events : cut.events <+: whole.events

theorem Outcome.Rolls.after {outcome : Outcome σ α} {tray tray' : Tray σ} {dice dice' : List Dice} {events : List Event}
    (h : outcome.Rolls tray' dice') (htakes : tray.Takes dice tray') (htold : diceTold events = dice) :
    (outcome.after events).Rolls tray (dice ++ dice') where
  takes := htakes.append h.takes
  told := by
    simp only [Outcome.after, diceTold_append, htold, List.append_assoc]
    refine h.told.imp (fun htold' => by rw [htold']) (And.imp_right ?_)
    rintro ⟨last, hdice, hlast⟩
    refine ⟨last, by rw [← hdice], ?_⟩
    rw [htakes.roller] at hlast
    rwa [drawn, List.foldl_append]

theorem Outcome.CutOff.after {cut whole : Outcome σ α} {tray tray' : Tray σ} {most : UInt64} {dice front : List Dice}
    {next : Dice} {events : List Event} (h : cut.CutOff whole tray' most front next) (htakes : tray.Takes dice tray')
    (htold : diceTold events = dice) : (cut.after events).CutOff (whole.after events) tray most (dice ++ front) next where
  result := h.result
  takes := (htakes.within most).append h.takes
  told := by rw [Outcome.after, diceTold_append, htold, h.told]
  lasts := h.lasts
  exceeded := h.exceeded
  events := (List.prefix_append_right_inj events).mpr h.events

/-- The run without a budget decides the run with any budget: it is the same if the budget lasts, and cut off if not. -/
def Play.Budgeted (play : Play σ α) : Prop :=
  ∀ tray : Tray σ, tray.budget = none → ∃ dice, (play.run tray).Rolls tray dice ∧
    ∀ most, tray.booked ≤ most →
      ((play.run tray).tray.booked ≤ most → play.run (tray.within most) = (play.run tray).within most) ∧
      (most < (play.run tray).tray.booked → ∃ front next rest, dice = front ++ next :: rest ∧
        (play.run (tray.within most)).CutOff (play.run tray) tray most front next)

namespace Play

/-- Plays that leave the tray alone and do not look at the budget. -/
theorem budgeted_of_still {play : Play σ α} (hstill : ∀ tray, (play.run tray).tray = tray)
    (hquiet : play.Tells fun event => event.dice? = none)
    (hwithin : ∀ tray most, play.run (tray.within most) = (play.run tray).within most) : play.Budgeted := by
  intro tray _
  have htold : diceTold (play.run tray).events = [] := List.filterMap_eq_nil_iff.mpr (hquiet tray)
  refine ⟨[], ⟨by rw [hstill]; exact tray.takes_nil, Or.inl htold⟩, fun most hmost => ⟨fun _ => hwithin tray most, ?_⟩⟩
  intro hlt
  rw [hstill] at hlt
  exact absurd hmost (UInt64.not_le.mpr hlt)

theorem budgeted_ofExcept (result : Except Fault α) : (ofExcept result : Play σ α).Budgeted :=
  budgeted_of_still (fun _ => rfl) (tells_ofExcept result) fun _ _ => rfl

theorem budgeted_tell {event : Event} (h : event.dice? = none) : (tell event : Play σ Unit).Budgeted :=
  budgeted_of_still (fun _ => rfl) (tells_tell h) fun _ _ => rfl

theorem budgeted_booked : (booked : Play σ UInt64).Budgeted :=
  budgeted_of_still (fun _ => rfl) (fun _ _ h => by cases h) fun _ _ => rfl

/-- A play that has been cut off is not followed by another one. -/
theorem cutOff_bind {play : Play σ α} {next : α → Play σ β} {tray bounded : Tray σ} {most : UInt64} {front : List Dice}
    {first : Dice} {whole : Outcome σ α} {whole' : Outcome σ β}
    (h : (play.run bounded).CutOff whole tray most front first) (hevents : whole.events <+: whole'.events) :
    ((play >>= next).run bounded).CutOff whole' tray most front first := by
  rw [run_bind]
  rcases hrun : play.run bounded with ⟨fault | a, tray', events⟩
  · rw [hrun] at h
    obtain rfl := Except.error.inj h.result
    exact ⟨rfl, h.takes, h.told, h.lasts, h.exceeded, h.events.trans hevents⟩
  · rw [hrun] at h
    cases h.result

/-- **Plays in a row are budgeted.** The budget lasts for both of them, or it ends in the first one, or in the second. -/
theorem Budgeted.bind {play : Play σ α} {next : α → Play σ β} (h : play.Budgeted) (hnext : ∀ a, (next a).Budgeted) :
    (play >>= next).Budgeted := by
  intro tray hfree
  obtain ⟨dice, hrolls, hplay⟩ := h tray hfree
  rcases hrun : play.run tray with ⟨fault | a, tray', events⟩
  · have hfail : (play >>= next).run tray = ⟨.error fault, tray', events⟩ := by rw [run_bind, hrun]
    rw [hrun] at hrolls hplay
    rw [hfail]
    refine ⟨dice, ⟨hrolls.takes, hrolls.told.imp_right ?_⟩, fun most hmost => ⟨fun hle => ?_, fun hlt => ?_⟩⟩
    · exact And.imp_left fun hfault => congrArg Except.error (Except.error.inj hfault)
    · rw [run_bind, (hplay most hmost).1 hle]
      rfl
    · obtain ⟨front, first, rest, hdice, hcut⟩ := (hplay most hmost).2 hlt
      exact ⟨front, first, rest, hdice, cutOff_bind hcut (List.prefix_refl _)⟩
  · have hgo : (play >>= next).run tray = ((next a).run tray').after events := by rw [run_bind, hrun]
    rw [hrun] at hrolls hplay
    rw [hgo]
    have htold : diceTold events = dice := hrolls.told.resolve_right fun h => by cases h.1
    obtain ⟨dice', hrolls', hplay'⟩ := hnext a tray' (hrolls.takes.budget.trans hfree)
    have hgrown : tray'.booked.toNat ≤ ((next a).run tray').tray.booked.toNat := by
      rw [hrolls'.takes.booked]
      exact Nat.le_add_right _ _
    refine ⟨dice ++ dice', hrolls'.after hrolls.takes htold, fun most hmost => ⟨fun hle => ?_, fun hlt => ?_⟩⟩
    · have hle' : tray'.booked ≤ most := UInt64.le_iff_toNat_le.mpr (hgrown.trans (UInt64.le_iff_toNat_le.mp hle))
      rw [run_bind, (hplay most hmost).1 hle']
      show ((next a).run (tray'.within most)).after events = _
      rw [(hplay' most hle').1 hle]
      rfl
    · by_cases hle' : tray'.booked ≤ most
      · obtain ⟨front, first, rest, rfl, hcut⟩ := (hplay' most hle').2 hlt
        refine ⟨dice ++ front, first, rest, (List.append_assoc _ _ _).symm, ?_⟩
        rw [run_bind, (hplay most hmost).1 hle']
        exact hcut.after hrolls.takes htold
      · obtain ⟨front, first, rest, rfl, hcut⟩ := (hplay most hmost).2 (UInt64.not_le.mp hle')
        exact ⟨front, first, rest ++ dice', by simp, cutOff_bind hcut (List.prefix_append _ _)⟩

end Play

/-! ## Reductions and evaluations -/

/-- Dice that have been booked are drawn. They are told if their sum is not too large. -/
theorem run_roll_of_book {tray booked : Tray σ} {dice : Dice} (h : tray.book dice.count = some booked) :
    (Play.throw dice).run tray =
      { result := ((dice.faces booked.roller).1.elim (.error .overflow) fun total => .ok total.toNat)
        tray := { booked with roller := drawn booked.roller [dice] }
        events := (dice.faces booked.roller).1.elim [] fun total => [.rolled dice total] } := by
  rw [Play.throw, Play.run_bind, Play.run_roll, Tray.roll, h]
  simp only [Tray.draw_eq]
  cases (dice.faces booked.roller).1 <;> rfl

theorem run_roll_of_no_book {tray : Tray σ} {dice : Dice} (h : tray.book dice.count = none) :
    (Play.throw dice).run tray = ⟨.error .tooManyDice, tray, []⟩ := by
  rw [Play.throw, Play.run_bind, Play.run_roll, Tray.roll, h]

/-- **A roll of dice is budgeted.** -/
theorem budgeted_throw (dice : Dice) : (Play.throw dice : Play σ Int).Budgeted := by
  intro tray hfree
  have hbook := Tray.book_of_free hfree dice.count
  have hbook' := tray.book_within dice.count
  cases hfit : fit? (tray.booked.toNat + dice.count.toNat) with
  | none =>
    -- the dice cannot be counted, with a budget or without
    rw [hfit] at hbook hbook'
    rw [run_roll_of_no_book hbook]
    refine ⟨[], ⟨tray.takes_nil, Or.inl rfl⟩, fun most hmost => ⟨fun _ => run_roll_of_no_book (hbook' most), ?_⟩⟩
    exact fun hlt => absurd hmost (UInt64.not_le.mpr hlt)
  | some booked =>
    rw [hfit] at hbook hbook'
    rw [run_roll_of_book hbook]
    have hbooked : booked.toNat = tray.booked.toNat + dice.count.toNat := fit?_eq_some_iff.mp hfit
    refine ⟨[dice], ⟨⟨rfl, by simpa [diceCount] using hbooked, rfl⟩, ?_⟩, fun most hmost => ⟨fun hle => ?_, fun hlt => ?_⟩⟩
    · cases hsum : (dice.faces tray.roller).1 with
      | none => exact Or.inr ⟨rfl, dice, rfl, hsum⟩
      | some total => exact Or.inl rfl
    · rw [run_roll_of_book ((hbook' most).trans (if_pos hle))]
      rfl
    · rw [run_roll_of_no_book ((hbook' most).trans (if_neg (UInt64.not_le.mpr hlt)))]
      refine ⟨[], dice, [], rfl, ⟨rfl, (tray.within most).takes_nil, rfl, hmost, ?_, List.nil_prefix⟩⟩
      show most.toNat < tray.booked.toNat + dice.count.toNat
      rw [← hbooked]
      exact UInt64.lt_iff_toNat_lt.mp hlt

/-- So all plays of the machine are budgeted, up to where they take dice back. -/
theorem parametric_budgeted : Play.Parametric (σ := σ) fun p (_ : Play σ _) => p.Budgeted where
  ofExcept := Play.budgeted_ofExcept
  tell _ h := Play.budgeted_tell (Event.dice?_of_ne h)
  booked := Play.budgeted_booked
  throw := budgeted_throw
  bind := Play.Budgeted.bind

/-- **A budget changes nothing as long as it lasts.** Let an instruction be evaluated with a budget and without one, from
the same roller. If the dice of the evaluation without a budget are not more than the budget allows, both evaluations are
the same. If they are more, the evaluation with the budget is cut off: it has rolled the dice that stand in front of the
first ones with which the budget is exceeded, and no others. -/
theorem evaluate_within_budget (t : Text) (s : σ) (earlier earlier' most : UInt64) :
    let whole := (evaluate t).run ⟨s, earlier, none⟩
    let limited := (evaluate t).run ⟨s, earlier', some most⟩
    ∃ dice, whole.Rolls ⟨s, 0, none⟩ dice ∧
      (whole.tray.booked ≤ most → limited = whole.within most) ∧
      (most < whole.tray.booked → ∃ front next rest, dice = front ++ next :: rest ∧
        limited.CutOff whole ⟨s, 0, none⟩ most front next) := by
  have hbudgeted : (counting t : Play σ UInt64).Budgeted := parametric_budgeted.counting t
  intro whole limited
  obtain ⟨dice, hrolls, hbudget⟩ := hbudgeted ⟨s, 0, none⟩ rfl
  have hwhole : whole = (counting t).run ⟨s, 0, none⟩ := run_evaluate t _
  have hlimited : limited = (counting t).run (Tray.within ⟨s, 0, none⟩ most) := run_evaluate t _
  rw [hwhole, hlimited]
  exact ⟨dice, hrolls, hbudget most (UInt64.le_iff_toNat_le.mpr (Nat.zero_le _))⟩

end
end TabletopDice
