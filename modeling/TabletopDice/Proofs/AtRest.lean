import TabletopDice.Proofs.Phases
import TabletopDice.Proofs.RedexFaults

/-!
# Passes that replace nothing

A pass that fails, or finds its buffer finished or stuck, has written nothing. It has booked nothing, either, unless dice
have been rolled whose sum is too large.

- `passInPlace` is a pass over a buffer that stands beside the roller, and can be written to at any time. The value of a
  redex is computed without it (`carries_valueOf`), so a pass writes only once it has a value (`run_passInPlace`);
- `Session.Outgrown` is the case in which dice are booked and have no value (`run_onePass_of_outgrown`). In any other
  case, a redex without a value leaves the tray alone (`tray_of_fault`);
- a session whose pass has changed nothing is at rest (`Session.AtRest`): its passes and reductions answer the same, as
  often as they are made.

The main statement is `pass_replaces_or_rests`.
-/

namespace TabletopDice

/-! ## Passes in place -/

/-- A roller together with a buffer. -/
structure Buffered (σ : Type) where
  roller : σ
  buffer : Text

instance {σ : Type} [Roller σ] : Roller (Buffered σ) where
  roll die held :=
    match Roller.roll die held.roller with
    | (face, roller) => (face, { held with roller })
  rollMany n die held :=
    match Roller.rollMany n die held.roller with
    | (sum, roller) => (sum, { held with roller })

section

variable {σ : Type}

/-- The session as a tray that holds its buffer. -/
def Session.held (session : Session σ) : Tray (Buffered σ) :=
  session.tray.mapRoller fun s => ⟨s, session.buffer⟩

/-- The buffer in the tray. -/
def Play.look : Play (Buffered σ) Text := fun tray => ⟨.ok tray.roller.buffer, tray, []⟩

/-- Writes over the buffer in the tray. -/
def Play.write (next : Text) : Play (Buffered σ) Unit := fun tray =>
  ⟨.ok (), { tray with roller := { tray.roller with buffer := next } }, []⟩

@[simp] theorem Play.run_look (session : Session σ) :
    Play.look.run session.held = ⟨.ok session.buffer, session.held, []⟩ := rfl

variable [Roller σ]

/-- Writes the value of a redex in its place. -/
def contractInPlace (rule : Rule) (m : Match) : Play (Buffered σ) Pass := do
  let value ← rule.valueOf m.text
  Play.tell (.substituting rule m.text value)
  Play.write (m.replace value)
  let next ← Play.look
  Play.tell (.reduced next)
  return .replaced rule next

/-- One pass over the buffer in the tray. -/
def passInPlace : Play (Buffered σ) Pass := do
  let buffer ← Play.look
  if isNumeral buffer then return .finished
  match redex? buffer with
  | none => return .stuck
  | some (rule, m) => contractInPlace rule m

/-- Dice show the same, and keep the buffer. -/
theorem Dice.faces_buffered (dice : Dice) (s : σ) (buffer : Text) :
    dice.faces (⟨s, buffer⟩ : Buffered σ) = ((dice.faces s).1, ⟨(dice.faces s).2, buffer⟩) := by
  simp only [faces, Tray.draw]
  split <;> rfl

/-- The value of a redex is computed without a look at the buffer. -/
theorem carries_valueOf (buffer : Text) (rule : Rule) (t : Text) :
    Play.Carries (fun s : σ => ⟨s, buffer⟩) (rule.valueOf t) (rule.valueOf t : Play (Buffered σ) Int) :=
  (parametric_carries fun dice s => dice.faces_buffered s buffer).valueOf rule t

/-- The buffer is written to once there is a value. -/
theorem run_contractInPlace (rule : Rule) (m : Match) (session : Session σ) :
    (contractInPlace rule m).run session.held =
      match (contract rule m).run session.tray with
      | ⟨.ok value, tray, events⟩ =>
        ⟨.ok (.replaced rule (m.replace value)), Session.held ⟨tray, m.replace value⟩, events⟩
      | ⟨.error fault, tray, events⟩ => ⟨.error fault, Session.held ⟨tray, session.buffer⟩, events⟩ := by
  have hvalue := carries_valueOf session.buffer rule m.text session.tray
  rw [contractInPlace, Session.held, Play.run_bind, hvalue]
  rcases hrun : (rule.valueOf m.text : Play σ Int).run session.tray with ⟨fault | value, tray, events⟩
  · rw [run_contract_of_error hrun]
    rfl
  · rw [run_contract_of_ok hrun]
    rfl

/-- **A pass in place is the pass of a session.** -/
theorem run_passInPlace (session : Session σ) : passInPlace.run session.held =
    { result := ((onePass session.buffer).run session.tray).result
      tray := (session.step .pass).2.held
      events := ((onePass session.buffer).run session.tray).events } := by
  rw [passInPlace, Play.run_bind, Play.run_look]
  simp only [Session.step]
  cases hredex : redex? session.buffer with
  | none =>
    rw [run_onePass_of_no_redex hredex]
    cases isNumeral session.buffer <;> rfl
  | some redex =>
    obtain ⟨rule, m⟩ := redex
    have hnum : isNumeral session.buffer = false := isNumeralRow_of_rowRedex? hredex
    rw [run_onePass_of_redex hredex]
    simp only [hnum, Bool.false_eq_true, if_false, run_contractInPlace]
    rcases (contract rule m).run session.tray with ⟨fault | value, tray', events⟩ <;> rfl

/-! ## Dice that are booked and have no value -/

/-- The buffer of the session has these dice as its redex, and the tray admits them. The sum of their faces is too
large. -/
structure Session.Outgrown (session : Session σ) (dice : Dice) : Prop where
  redex : ∃ m count sides, redex? session.buffer = some (.dice, m) ∧ m.matched = diceRow count sides ∧
    dice.IsNamed count sides
  admitted : session.tray.booked.toNat + dice.count.toNat ≤ session.tray.limit
  sum : (dice.faces session.tray.roller).1 = none

theorem diceOf_eq_ok_iff {count : Option Digits} {sides : Digits} {dice : Dice} :
    diceOf count sides = .ok dice ↔ dice.IsNamed count sides := by
  rcases diceOf_cases count sides with ⟨hdice, hlarge⟩ | ⟨hdice, -, hzero⟩ | ⟨dice', hdice, hnamed⟩
  · refine iff_of_false (fun h => by rw [hdice] at h; cases h) fun h => ?_
    have hbounds := h.bounds
    omega
  · refine iff_of_false (fun h => by rw [hdice] at h; cases h) fun h => ?_
    have hbounds := h.bounds
    omega
  · rw [hdice, Except.ok.injEq]
    exact ⟨fun h => h ▸ hnamed, fun h => h.unique hnamed⟩

/-- **Dice whose sum is too large stay booked.** -/
theorem run_onePass_of_outgrown {session : Session σ} {dice : Dice} (h : session.Outgrown dice) :
    ∃ tray', (onePass session.buffer).run session.tray = ⟨.error .overflow, tray', []⟩ ∧
      tray'.booked.toNat = session.tray.booked.toNat + dice.count.toNat := by
  obtain ⟨m, count, sides, hredex, hm, hnamed⟩ := h.redex
  have hadmits : session.tray.book dice.count ≠ none := by
    rw [Ne, Tray.book_eq_none_iff]
    exact Nat.not_lt.mpr h.admitted
  obtain ⟨booked, hbook⟩ := Option.ne_none_iff_exists'.mp hadmits
  obtain ⟨hroller, -, hbooked, -⟩ := Tray.book_eq_some hbook
  have hvalue : (Rule.dice.valueOf m.text : Play σ Int).run session.tray = (Play.throw dice).run session.tray := by
    rw [Match.text, hm, join_diceRow, valueOf_diceText, diceOf_eq_ok_iff.mpr hnamed]
    rfl
  rw [run_roll_of_book hbook, hroller, h.sum] at hvalue
  refine ⟨{ booked with roller := drawn session.tray.roller [dice] }, ?_, hbooked⟩
  rw [run_onePass_of_redex hredex, run_contract_of_error hvalue]
  rfl

/-- Dice that have no value are refused and leave the tray alone, or they are booked and their sum is too large. -/
theorem tray_throw_of_error {dice : Dice} {tray tray' : Tray σ} {fault : Fault} {events : List Event}
    (h : (Play.throw dice).run tray = ⟨.error fault, tray', events⟩) :
    tray' = tray ∨ tray.booked.toNat + dice.count.toNat ≤ tray.limit ∧ (dice.faces tray.roller).1 = none := by
  cases hbook : tray.book dice.count with
  | none =>
    rw [run_roll_of_no_book hbook] at h
    exact Or.inl (congrArg Outcome.tray h).symm
  | some booked =>
    refine Or.inr ⟨?_, ?_⟩
    · rw [← Nat.not_lt, ← Tray.book_eq_none_iff, hbook]
      exact Option.some_ne_none _
    · rw [run_roll_of_book hbook, (Tray.book_eq_some hbook).1] at h
      cases hsum : (dice.faces tray.roller).1 with
      | none => rfl
      | some total => rw [hsum] at h; cases h

/-- **Any other fault of a redex leaves the tray alone.** -/
theorem tray_of_fault {session : Session σ} {rule : Rule} {m : Match} {fault : Fault} {tray' : Tray σ}
    {events : List Event} (hredex : redex? session.buffer = some (rule, m)) (hgrown : ∀ dice, ¬ session.Outgrown dice)
    (hfault : (rule.valueOf m.text).run session.tray = ⟨.error fault, tray', events⟩) : tray' = session.tray := by
  rcases Rule.cases_of_occurrence? (occurrence_of_redex? hredex) with ⟨rfl, count, sides, hm⟩ | ⟨op, l, r, rfl, hm⟩
  · rw [Match.text, hm, join_diceRow, valueOf_diceText] at hfault
    cases hdice : diceOf count sides with
    | error fault' =>
      rw [hdice] at hfault
      exact (congrArg Outcome.tray hfault).symm
    | ok dice =>
      rw [hdice, Play.ofExcept_ok, pure_bind] at hfault
      rcases tray_throw_of_error hfault with htray | ⟨hadmitted, hsum⟩
      · exact htray
      · exact absurd ⟨⟨m, count, sides, hredex, hm, diceOf_eq_ok_iff.mp hdice⟩, hadmitted, hsum⟩ (hgrown dice)
  · rw [run_valueOf_operatorRow hm] at hfault
    exact (congrArg Outcome.tray hfault).symm

/-! ## Sessions at rest -/

/-- Passes and reductions leave the session as it is, and a reduction answers what the pass has found: its fault, or that
the buffer is stuck, or the number of the buffer. -/
structure Session.AtRest (session : Session σ) : Prop where
  pass : (session.step .pass).2 = session
  reduce : (session.step .reduce).2 = session
  failed : ∀ fault, (session.step .pass).1 = .error fault → (session.step .reduce).1 = .error fault
  stuck : (session.step .pass).1 = .ok (.pass .stuck) → (session.step .reduce).1 = .error (.malformed session.buffer)
  finished : (session.step .pass).1 = .ok (.pass .finished) → ∃ d : Digits, session.buffer = d.text ∧
    (session.step .reduce).1 = (fit? d.value).elim (.error .overflow) fun total => .ok (.total total)

namespace Session.AtRest

variable {session : Session σ}

theorem of_failed {fault : Fault} (hpass : session.step .pass = (.error fault, session))
    (hreduce : session.step .reduce = (.error fault, session)) : session.AtRest where
  pass := by rw [hpass]
  reduce := by rw [hreduce]
  failed fault' h := by rw [hreduce, ← h, hpass]
  stuck h := by rw [hpass] at h; cases h
  finished h := by rw [hpass] at h; cases h

theorem of_stuck (hpass : session.step .pass = (.ok (.pass .stuck), session))
    (hreduce : session.step .reduce = (.error (.malformed session.buffer), session)) : session.AtRest where
  pass := by rw [hpass]
  reduce := by rw [hreduce]
  failed fault h := by rw [hpass] at h; cases h
  stuck _ := by rw [hreduce]
  finished h := by rw [hpass] at h; cases h

theorem of_finished {d : Digits} (hd : session.buffer = d.text)
    (hpass : session.step .pass = (.ok (.pass .finished), session))
    (hreduce : session.step .reduce =
      ((fit? d.value).elim (.error .overflow) fun total => .ok (.total total), session)) : session.AtRest where
  pass := by rw [hpass]
  reduce := by rw [hreduce]
  failed fault h := by rw [hpass] at h; cases h
  stuck h := by rw [hpass] at h; cases h
  finished _ := ⟨d, hd, by rw [hreduce]⟩

/-- However often passes and reductions are made at rest, each answers as it does at first. -/
theorem run (h : session.AtRest) {steps : List Step} (hsteps : ∀ s ∈ steps, s = .pass ∨ s = .reduce) :
    session.run steps = steps.map session.step := by
  induction steps with
  | nil => rfl
  | cons s rest ih =>
    have hstay : (session.step s).2 = session := by
      rcases hsteps s List.mem_cons_self with rfl | rfl
      · exact h.pass
      · exact h.reduce
    rw [Session.run, hstay, List.map_cons, ih fun s' hs' => hsteps s' (List.mem_cons_of_mem _ hs')]

end Session.AtRest

/-- Without a redex, a session is at rest. -/
theorem Session.atRest_of_no_redex {session : Session σ} (hredex : redex? session.buffer = none) : session.AtRest := by
  cases hnum : isNumeral session.buffer with
  | true =>
    obtain ⟨d, hd⟩ := exists_digits_of_isNumeral hnum
    refine .of_finished hd ?_ ?_
    · simp only [step, run_onePass_of_no_redex hredex, hnum]
      rfl
    · simp only [step, perform, hd, reduce_digits, Play.run_ofExcept, Digits.read]
      cases fit? d.value <;> simp [Except.map, ← hd]
  | false =>
    refine .of_stuck ?_ ?_
    · simp only [step, run_onePass_of_no_redex hredex, hnum]
      rfl
    · simp only [step, perform, reduce_of_no_redex hredex, hnum]
      rfl

/-- A session is at rest if its pass replaces nothing, unless dice have outgrown their sum. -/
theorem Session.atRest_of_still {session : Session σ}
    (hstill : ∀ rule next, (session.step .pass).1 ≠ .ok (.pass (.replaced rule next)))
    (hgrown : ∀ dice, ¬ session.Outgrown dice) : session.AtRest := by
  cases hredex : redex? session.buffer with
  | none => exact atRest_of_no_redex hredex
  | some redex =>
    obtain ⟨rule, m⟩ := redex
    rcases hrun : (rule.valueOf m.text : Play σ Int).run session.tray with ⟨fault | value, tray', events⟩
    · obtain rfl := tray_of_fault hredex hgrown hrun
      have hcontract := run_contract_of_error hrun
      have hpass : session.step .pass = (.error fault, session) := by
        simp only [step, run_onePass_of_redex hredex, hcontract]
        rfl
      have hreduce : session.step .reduce = (.error fault, session) := by
        simp only [step, perform, reduce_of_redex hredex, Play.run_bind, hcontract]
        rfl
      exact .of_failed hpass hreduce
    · refine absurd ?_ (hstill rule (m.replace value))
      simp only [step, run_onePass_of_redex hredex, run_contract_of_ok hrun]
      rfl

/-- **A pass that replaces nothing changes nothing.** A pass over a buffer in place is the pass of a session. It keeps
the buffer unless it replaces something. It has booked dice only if these are the redex of the buffer and their sum is
too large; it overflows then, and as many dice are booked as the redex says. In any other case the session is left as it
is, and so are its later passes and reductions: each answers as it does at first, where a reduction has the fault of
the pass, or finds the buffer malformed if it is stuck, or has the number of a finished buffer. -/
theorem pass_replaces_or_rests (session : Session σ) :
    passInPlace.run session.held =
      { result := ((onePass session.buffer).run session.tray).result
        tray := (session.step .pass).2.held
        events := ((onePass session.buffer).run session.tray).events } ∧
    (∀ dice, session.Outgrown dice → (session.step .pass).1 = .error .overflow ∧
      (session.step .pass).2.buffer = session.buffer ∧
        (session.step .pass).2.tray.booked.toNat = session.tray.booked.toNat + dice.count.toNat) ∧
    ((∀ rule next, (session.step .pass).1 ≠ .ok (.pass (.replaced rule next))) → (∀ dice, ¬ session.Outgrown dice) →
      session.AtRest ∧ ∀ steps, (∀ s ∈ steps, s = .pass ∨ s = .reduce) → session.run steps = steps.map session.step) := by
  refine ⟨run_passInPlace session, fun dice hgrown => ?_, fun hstill hgrown => ?_⟩
  · obtain ⟨tray', hpass, hbooked⟩ := run_onePass_of_outgrown hgrown
    rw [Session.step, hpass]
    exact ⟨rfl, rfl, hbooked⟩
  · have hrest := Session.atRest_of_still hstill hgrown
    exact ⟨hrest, fun steps => hrest.run⟩

/-- Two dice outgrow their sum, and stay booked. A pass over `7/0` fails, and leaves the session at rest. -/
theorem pass_replaces_or_rests_dice_or_quotient :
    let dice : Dice := ⟨2, ⟨10000000000000000000, by decide⟩⟩
    let tray : Tray Cycle := ⟨⟨[10000000000000000000], 0⟩, 3, some 9⟩
    let grown : Session Cycle := ⟨tray, dice.write⟩
    let failed : Session Cycle := ⟨tray, ['7', '/', '0']⟩
    (grown.step .pass).1 = .error .overflow ∧ (grown.step .pass).2.tray.booked.toNat = 5 ∧
    (failed.step .pass).1 = .error .divisionByZero ∧ failed.AtRest ∧
      failed.run [.pass, .reduce, .pass] = [.pass, .reduce, .pass].map failed.step := by
  intro dice tray grown failed
  have hgrown : grown.Outgrown dice := by
    let count : Digits := .ofNat dice.count.toNat
    let sides : Digits := .ofNat dice.die.sides.toNat
    have hredex : redex? grown.buffer = some (.dice, ⟨[], diceRow (some count) sides, []⟩) := by decide +kernel
    have hcount : countValue (some count) = dice.count.toNat := Digits.value_ofNat _
    have hnamed : dice.IsNamed (some count) sides := ⟨by rw [hcount]; rfl, (Digits.value_ofNat _).symm⟩
    exact ⟨⟨_, some count, sides, hredex, rfl, hnamed⟩, by decide, by decide⟩
  have hdivision : (failed.step .pass).1 = .error .divisionByZero := by decide
  have hstill : ∀ rule next, (failed.step .pass).1 ≠ .ok (.pass (.replaced rule next)) := by
    intro rule next h
    rw [hdivision] at h
    cases h
  have hadmitted : ∀ dice, ¬ failed.Outgrown dice := by
    rintro dice ⟨⟨m, count, sides, hredex, -⟩, -⟩
    have hrule : (redex? failed.buffer).map Prod.fst = some (.binary .divide) := by decide
    rw [hredex] at hrule
    cases hrule
  obtain ⟨hoverflow, -, hbooked⟩ := (pass_replaces_or_rests grown).2.1 _ hgrown
  obtain ⟨hrest, hrun⟩ := (pass_replaces_or_rests failed).2.2 hstill hadmitted
  exact ⟨hoverflow, hbooked, hdivision, hrest, hrun _ (by decide)⟩

end

end TabletopDice
