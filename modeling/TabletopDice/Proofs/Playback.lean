import TabletopDice.Proofs.Bookings
import TabletopDice.Proofs.PassCount

/-!
# Playing the events of an evaluation back

The events of an evaluation are enough to follow it: where it stands is known from its instruction and the events so far,
and each event fits what is known.

- `Playback` follows the events. It knows the text whose groups are being resolved and the buffer that is being reduced,
  and finds the place of each value on its own, as the leftmost occurrence of the rule that is told of.
  `Playback.read` refuses any event that does not fit, and `Playback.play` reads them in order;
- the events of a redex, of a reduction (`play_reduce`) and of a whole text (`play_total`) are played back, whether these
  come to a value or fail. What is played back is told in its order (`Playback.exists_reduced`,
  `Playback.exists_substituting`, `Playback.exists_rolled`);
- `Play.Tallies` compares the dice that are told of with those that are booked. All plays of the machine have it
  (`parametric_tallies`).

The main statement is `evaluate_plays_back`.
-/

namespace TabletopDice

/-! ## Following events -/

/-- What the last event leaves open: nothing, or what dice have come to, or what a rule has left. Nothing follows a
total. -/
inductive Phase
  | ready
  | thrown (dice : Dice) (total : UInt64)
  | replaced
  | ended
  deriving DecidableEq, Repr

/-- Nothing is left open. -/
def Phase.Closed (phase : Phase) : Prop := phase = ready ∨ phase = ended

/-- A rule may replace a text by a value: dice by what they have come to, and operators behind a step that is over. -/
def Phase.Admits : Phase → Rule → Text → Int → Prop
  | ready, .binary _, _, _ => True
  | thrown dice total, .dice, matched, value => readDice matched = .ok dice ∧ value = total.toNat
  | _, _, _, _ => False

instance : ∀ (phase : Phase) (rule : Rule) (matched : Text) (value : Int),
    Decidable (phase.Admits rule matched value)
  | .ready, .binary _, _, _ => inferInstanceAs (Decidable True)
  | .thrown _ _, .dice, _, _ => inferInstanceAs (Decidable (_ ∧ _))
  | .ready, .dice, _, _ => inferInstanceAs (Decidable False)
  | .thrown _ _, .binary _, _, _ => inferInstanceAs (Decidable False)
  | .replaced, _, _, _ => inferInstanceAs (Decidable False)
  | .ended, _, _, _ => inferInstanceAs (Decidable False)

theorem Phase.Admits.exists_thrown {phase : Phase} {matched : Text} {value : Int}
    (h : phase.Admits .dice matched value) :
    ∃ dice total, phase = .thrown dice total ∧ readDice matched = .ok dice ∧ value = total.toNat := by
  cases phase with
  | thrown dice total => exact ⟨dice, total, rfl, h.1, h.2⟩
  | ready => exact h.elim
  | replaced => exact h.elim
  | ended => exact h.elim

theorem Phase.Admits.eq_ready {phase : Phase} {op : Operator} {matched : Text} {value : Int}
    (h : phase.Admits (.binary op) matched value) : phase = .ready := by
  cases phase with
  | ready => rfl
  | thrown dice total => exact h.elim
  | replaced => exact h.elim
  | ended => exact h.elim

/-- Where an evaluation stands: `buffer` is what is left of the inside of the first group of `text`, or of `text` itself if
it has no groups. -/
structure Playback where
  text : Text
  buffer : Text
  phase : Phase := .ready
  deriving DecidableEq, Repr

namespace Playback

/-- The start of the reduction of the first group of a text, or of the text if it has no groups. -/
def start (t : Text) : Playback := ⟨t, (Group.find? t).elim t Group.inside, .ready⟩

/-- The reduction is over, and its buffer is the numeral of a number. -/
def Shows (p : Playback) (value : UInt64) : Prop :=
  p.phase = .ready ∧ isNumeral p.buffer ∧ readTotal p.buffer = .ok value

instance (p : Playback) (value : UInt64) : Decidable (p.Shows value) := inferInstanceAs (Decidable (_ ∧ _ ∧ _))

/-- Reads an event, if it fits: a value takes the place of the leftmost occurrence of its rule, and a group has the value
that its inside is reduced to. -/
def read (p : Playback) : Event → Option Playback
  | .rolled dice total => if p.phase = .ready then some { p with phase := .thrown dice total } else none
  | .substituting rule matched value => do
    let m ← rule.occurrence? p.buffer
    if p.phase.Admits rule matched value ∧ m.text = matched then
      some { p with buffer := m.replace value, phase := .replaced }
    else none
  | .reduced buffer => if p.phase = .replaced ∧ buffer = p.buffer then some { p with phase := .ready } else none
  | .resolvedGroup text value => do
    let g ← Group.find? p.text
    if g.text = text ∧ p.Shows value then some (start (g.replace value)) else none
  | .evaluated _ total _ =>
    if Group.find? p.text = none ∧ p.Shows total then some { p with phase := .ended } else none

/-- Reads events, if each of them fits. -/
def play (p : Playback) (events : List Event) : Option Playback := events.foldlM read p

/-- In `(1+2)`, the sum takes its place, and then the place of the group. -/
example : ((start "(1+2)".toList).play [.substituting (.binary .add) "1+2".toList 3, .reduced "3".toList,
    .resolvedGroup "(1+2)".toList 3]) = some ⟨"3".toList, "3".toList, .ready⟩ := by decide

@[simp] theorem play_nil (p : Playback) : p.play [] = some p := rfl

theorem play_cons (p : Playback) (event : Event) (events : List Event) :
    p.play (event :: events) = (p.read event).bind fun q => q.play events := rfl

theorem play_append (p : Playback) (front rest : List Event) :
    p.play (front ++ rest) = (p.play front).bind fun q => q.play rest := List.foldlM_append

/-- Events are played back in front of each of them, and behind it. -/
theorem exists_of_play_append {p last : Playback} {front rest : List Event} {event : Event}
    (h : p.play (front ++ event :: rest) = some last) :
    ∃ q q', p.play front = some q ∧ q.read event = some q' ∧ q'.play rest = some last := by
  rw [play_append] at h
  obtain ⟨q, hfront, h⟩ := Option.bind_eq_some_iff.mp h
  rw [play_cons] at h
  obtain ⟨q', hevent, hrest⟩ := Option.bind_eq_some_iff.mp h
  exact ⟨q, q', hfront, hevent, hrest⟩

/-! ## What has been read -/

theorem read_rolled_eq_some {p q : Playback} {dice : Dice} {total : UInt64} :
    p.read (.rolled dice total) = some q ↔ p.phase = .ready ∧ q = { p with phase := .thrown dice total } := by
  simp [read, eq_comm]

theorem read_substituting_eq_some {p q : Playback} {rule : Rule} {matched : Text} {value : Int} :
    p.read (.substituting rule matched value) = some q ↔ p.phase.Admits rule matched value ∧
      ∃ m, rule.occurrence? p.buffer = some m ∧ m.text = matched ∧ q = ⟨p.text, m.replace value, .replaced⟩ := by
  simp only [read, Option.bind_eq_bind, Option.bind_eq_some_iff, Option.ite_none_right_eq_some, Option.some.injEq]
  constructor
  · rintro ⟨m, hm, ⟨hadmits, hmatched⟩, rfl⟩
    exact ⟨hadmits, m, hm, hmatched, rfl⟩
  · rintro ⟨hadmits, m, hm, hmatched, rfl⟩
    exact ⟨m, hm, ⟨hadmits, hmatched⟩, rfl⟩

theorem read_reduced_eq_some {p q : Playback} {buffer : Text} :
    p.read (.reduced buffer) = some q ↔ p.phase = .replaced ∧ buffer = p.buffer ∧ q = { p with phase := .ready } := by
  simp [read, eq_comm, and_assoc]

theorem read_resolvedGroup_eq_some {p q : Playback} {text : Text} {value : UInt64} :
    p.read (.resolvedGroup text value) = some q ↔
      ∃ g, Group.find? p.text = some g ∧ g.text = text ∧ p.Shows value ∧ q = start (g.replace value) := by
  simp [read, Option.bind_eq_some_iff, and_assoc, @eq_comm _ q]

theorem read_evaluated_eq_some {p q : Playback} {t : Text} {total rolls : UInt64} :
    p.read (.evaluated t total rolls) = some q ↔
      Group.find? p.text = none ∧ p.Shows total ∧ q = { p with phase := .ended } := by
  simp [read, eq_comm, and_assoc]

/-- What a step has left open is taken up: dice that are thrown by their total, and a value by the buffer. -/
theorem eq_of_read_open {p q : Playback} {event : Event} (hopen : p.phase ≠ .ready) (h : p.read event = some q) :
    (∃ dice total matched, p.phase = .thrown dice total ∧ readDice matched = .ok dice ∧
      event = .substituting .dice matched total.toNat) ∨ p.phase = .replaced ∧ event = .reduced p.buffer := by
  cases event with
  | rolled dice total => exact absurd (read_rolled_eq_some.mp h).1 hopen
  | substituting rule matched value =>
    obtain ⟨hadmits, -⟩ := read_substituting_eq_some.mp h
    cases rule with
    | binary op => exact absurd hadmits.eq_ready hopen
    | dice =>
      obtain ⟨dice, total, hphase, hdice, rfl⟩ := hadmits.exists_thrown
      exact Or.inl ⟨dice, total, matched, hphase, hdice, rfl⟩
  | reduced buffer =>
    obtain ⟨hphase, rfl, -⟩ := read_reduced_eq_some.mp h
    exact Or.inr ⟨hphase, rfl⟩
  | resolvedGroup text value =>
    obtain ⟨g, -, -, hshows, -⟩ := read_resolvedGroup_eq_some.mp h
    exact absurd hshows.1 hopen
  | evaluated t total rolls => exact absurd (read_evaluated_eq_some.mp h).2.1.1 hopen

/-- Dice are thrown by the event that tells of them. -/
theorem eq_rolled_of_read {p q : Playback} {event : Event} {dice : Dice} {total : UInt64} (h : p.read event = some q)
    (hphase : q.phase = .thrown dice total) : event = .rolled dice total := by
  cases event with
  | rolled dice' total' =>
    obtain ⟨-, rfl⟩ := read_rolled_eq_some.mp h
    obtain ⟨rfl, rfl⟩ := Phase.thrown.injEq .. ▸ hphase
    rfl
  | substituting rule matched value =>
    obtain ⟨-, m, -, -, rfl⟩ := read_substituting_eq_some.mp h
    cases hphase
  | reduced buffer =>
    obtain ⟨-, -, rfl⟩ := read_reduced_eq_some.mp h
    cases hphase
  | resolvedGroup text value =>
    obtain ⟨g, -, -, -, rfl⟩ := read_resolvedGroup_eq_some.mp h
    cases hphase
  | evaluated t total rolls =>
    obtain ⟨-, -, rfl⟩ := read_evaluated_eq_some.mp h
    cases hphase

/-- Where events leave another phase, there is a first one. -/
theorem exists_next {p last : Playback} {rest : List Event} (h : p.play rest = some last) (hphase : p.phase ≠ last.phase) :
    ∃ event q rest', rest = event :: rest' ∧ p.read event = some q := by
  cases rest with
  | nil =>
    obtain rfl := Option.some.inj h
    exact absurd rfl hphase
  | cons event rest' =>
    rw [play_cons] at h
    obtain ⟨q, hq, -⟩ := Option.bind_eq_some_iff.mp h
    exact ⟨event, q, rest', rfl, hq⟩

section

variable {p last : Playback} {front rest : List Event}

/-- **A rule replaces its leftmost occurrence**, and leaves the buffer that is told of next. -/
theorem exists_reduced {rule : Rule} {matched : Text} {value : Int}
    (h : p.play (front ++ .substituting rule matched value :: rest) = some last) (hlast : last.phase.Closed) :
    ∃ q m rest', p.play front = some q ∧ rule.occurrence? q.buffer = some m ∧ m.text = matched ∧
      rest = .reduced (m.replace value) :: rest' := by
  obtain ⟨q, q', hfront, hread, hplay⟩ := exists_of_play_append h
  obtain ⟨-, m, hm, hmatched, rfl⟩ := read_substituting_eq_some.mp hread
  have hphase : Phase.replaced ≠ last.phase := by
    rcases hlast with hlast | hlast <;> simp [hlast]
  obtain ⟨event, q'', rest', rfl, hnext⟩ := exists_next hplay hphase
  obtain ⟨dice, total, matched', hthrown, -⟩ | ⟨-, rfl⟩ := eq_of_read_open (by simp) hnext
  · cases hthrown
  · exact ⟨q, m, rest', hfront, hm, hmatched, rfl⟩

/-- **Dice that are rolled are replaced by their total.** -/
theorem exists_substituting {dice : Dice} {total : UInt64}
    (h : p.play (front ++ .rolled dice total :: rest) = some last) (hlast : last.phase.Closed) :
    ∃ matched rest', readDice matched = .ok dice ∧ rest = .substituting .dice matched total.toNat :: rest' := by
  obtain ⟨q, q', -, hread, hplay⟩ := exists_of_play_append h
  obtain ⟨-, rfl⟩ := read_rolled_eq_some.mp hread
  have hphase : Phase.thrown dice total ≠ last.phase := by
    rcases hlast with hlast | hlast <;> simp [hlast]
  obtain ⟨event, q'', rest', rfl, hnext⟩ := exists_next hplay hphase
  obtain ⟨dice', total', matched, hthrown, hdice, rfl⟩ | ⟨hreplaced, -⟩ := eq_of_read_open (by simp) hnext
  · obtain ⟨rfl, rfl⟩ := Phase.thrown.injEq .. ▸ hthrown
    exact ⟨matched, rest', hdice, rfl⟩
  · cases hreplaced

/-- **Dice that are replaced have been rolled.** -/
theorem exists_rolled {matched : Text} {value : Int}
    (h : p.play (front ++ .substituting .dice matched value :: rest) = some last) (hready : p.phase = .ready) :
    ∃ front' dice total, front = front' ++ [.rolled dice total] ∧ value = total.toNat := by
  obtain ⟨q, q', hfront, hread, -⟩ := exists_of_play_append h
  obtain ⟨hadmits, -⟩ := read_substituting_eq_some.mp hread
  obtain ⟨dice, total, hphase, -, hvalue⟩ := hadmits.exists_thrown
  rcases List.eq_nil_or_concat' front with rfl | ⟨front', event, rfl⟩
  · obtain rfl := Option.some.inj hfront
    rw [hready] at hphase
    cases hphase
  · obtain ⟨r, r', -, hlast, hnil⟩ := exists_of_play_append hfront
    obtain rfl := Option.some.inj hnil
    obtain rfl := eq_rolled_of_read hlast hphase
    exact ⟨front', dice, total, rfl, hvalue⟩

/-- **Nothing is told behind a total.** -/
theorem eq_nil_of_evaluated {t : Text} {total rolls : UInt64}
    (h : p.play (front ++ .evaluated t total rolls :: rest) = some last) : rest = [] ∧ last.phase = .ended := by
  obtain ⟨q, q', -, hread, hplay⟩ := exists_of_play_append h
  obtain ⟨-, -, rfl⟩ := read_evaluated_eq_some.mp hread
  cases rest with
  | nil => exact ⟨rfl, by rw [← Option.some.inj hplay]⟩
  | cons event rest' =>
    rw [play_cons] at hplay
    obtain ⟨q'', hnext, -⟩ := Option.bind_eq_some_iff.mp hplay
    obtain ⟨dice, total', matched, hthrown, -⟩ | ⟨hreplaced, -⟩ := eq_of_read_open (by simp) hnext
    · cases hthrown
    · cases hreplaced

/-- A buffer that is told of is what has been played back. -/
theorem buffer_of_reduced {buffer : Text} (h : p.play (front ++ .reduced buffer :: rest) = some last) :
    ∃ q, p.play front = some q ∧ q.buffer = buffer := by
  obtain ⟨q, q', hfront, hread, -⟩ := exists_of_play_append h
  exact ⟨q, hfront, (read_reduced_eq_some.mp hread).2.1.symm⟩

/-- A group that is told of is the first one, and its value is that of the buffer that has been played back. -/
theorem shows_of_resolvedGroup {group : Text} {value : UInt64}
    (h : p.play (front ++ .resolvedGroup group value :: rest) = some last) :
    ∃ q g, p.play front = some q ∧ Group.find? q.text = some g ∧ g.text = group ∧ q.Shows value := by
  obtain ⟨q, q', hfront, hread, -⟩ := exists_of_play_append h
  obtain ⟨g, hfind, htext, hshows, -⟩ := read_resolvedGroup_eq_some.mp hread
  exact ⟨q, g, hfront, hfind, htext, hshows⟩

end

end Playback

section

variable {σ : Type} [Roller σ]

/-! ## Plays that are played back -/

open Playback

/-- A roll is told of exactly if the dice have a total. -/
theorem run_throw_cases (dice : Dice) (tray : Tray σ) :
    (∃ total tray', (Play.throw dice).run tray = ⟨.ok (total.toNat : Nat), tray', [.rolled dice total]⟩) ∨
      ∃ fault tray', (Play.throw dice).run tray = ⟨.error fault, tray', []⟩ := by
  cases hbook : tray.book dice.count with
  | none => exact Or.inr ⟨_, _, run_roll_of_no_book hbook⟩
  | some booked =>
    rw [run_roll_of_book hbook]
    cases (dice.faces booked.roller).1 with
    | none => exact Or.inr ⟨_, _, rfl⟩
    | some total => exact Or.inl ⟨total, _, rfl⟩

/-- The value of a redex is told of so that a rule may replace the text by it; without a value, nothing is told. -/
theorem play_valueOf (rule : Rule) (t text buffer : Text) (tray : Tray σ) :
    match (rule.valueOf t).run tray with
    | ⟨.ok value, _, events⟩ => ∃ phase, (⟨text, buffer, .ready⟩ : Playback).play events = some ⟨text, buffer, phase⟩ ∧
        phase.Admits rule t value
    | ⟨.error _, _, events⟩ => events = [] := by
  cases rule with
  | binary op =>
    rw [Rule.valueOf, Play.run_ofExcept]
    cases op.valueOf t with
    | error fault => rfl
    | ok value => exact ⟨.ready, rfl, trivial⟩
  | dice =>
    have hvalue : (Rule.dice.valueOf t : Play σ Int) = Play.ofExcept (readDice t) >>= Play.throw := rfl
    rw [hvalue, Play.run_bind, Play.run_ofExcept]
    cases hdice : readDice t with
    | error fault => rfl
    | ok dice =>
      obtain ⟨total, tray', hrun⟩ | ⟨fault, tray', hrun⟩ := run_throw_cases dice tray
      · simp only [hrun, Outcome.after, List.nil_append]
        exact ⟨.thrown dice total, rfl, hdice, rfl⟩
      · simp only [hrun, Outcome.after, List.nil_append]

/-- **A redex is played back**: its value takes its place. -/
theorem play_contract {rule : Rule} {m : Match} {buffer : Text} (h : rule.occurrence? buffer = some m) (text : Text)
    (tray : Tray σ) :
    (⟨text, buffer, .ready⟩ : Playback).play ((contract rule m).run tray).events =
      some ⟨text, ((contract rule m).run tray).result.toOption.elim buffer m.replace, .ready⟩ := by
  have hvalue := play_valueOf rule m.text text buffer tray
  rcases hrun : (rule.valueOf m.text).run tray with ⟨fault | value, tray', events⟩
  · rw [hrun] at hvalue
    obtain rfl : events = [] := hvalue
    rw [run_contract_of_error hrun]
    rfl
  · rw [hrun] at hvalue
    obtain ⟨phase, hplay, hadmits⟩ := hvalue
    have hread : (⟨text, buffer, phase⟩ : Playback).read (.substituting rule m.text value) =
        some ⟨text, m.replace value, .replaced⟩ := read_substituting_eq_some.mpr ⟨hadmits, m, h, rfl, rfl⟩
    have hreduced : (⟨text, m.replace value, .replaced⟩ : Playback).read (.reduced (m.replace value)) =
        some ⟨text, m.replace value, .ready⟩ := read_reduced_eq_some.mpr ⟨rfl, rfl, rfl⟩
    rw [run_contract_of_ok hrun, play_append, hplay, Option.bind_some, play_cons, hread, Option.bind_some, play_cons,
      hreduced]
    rfl

/-- **A reduction is played back**, to its number if it has one. -/
theorem play_reduce (text buffer : Text) (tray : Tray σ) : ∃ last,
    (⟨text, buffer, .ready⟩ : Playback).play ((reduce buffer).run tray).events = some ⟨text, last, .ready⟩ ∧
      ∀ value, ((reduce buffer).run tray).result = .ok value → (⟨text, last, .ready⟩ : Playback).Shows value := by
  induction buffer using buffer_induction generalizing tray with
  | normal buffer hredex =>
    refine ⟨buffer, ?_, fun value hvalue => ?_⟩
    · rw [reduce_of_no_redex hredex]
      split <;> rfl
    · rw [reduce_of_no_redex hredex] at hvalue
      split at hvalue
      · exact ⟨rfl, ‹_›, hvalue⟩
      · cases hvalue
  | redex buffer rule m hredex ih =>
    have hcontract := play_contract (occurrence_of_redex? hredex) text tray
    rw [reduce_of_redex hredex, Play.run_bind]
    rcases hrun : (contract rule m).run tray with ⟨fault | value, tray', events⟩
    · rw [hrun] at hcontract
      exact ⟨buffer, hcontract, fun _ h => by cases h⟩
    · rw [hrun] at hcontract
      obtain ⟨last, hlast, hvalue⟩ := ih value tray'
      refine ⟨last, ?_, hvalue⟩
      show play _ (events ++ ((reduce (m.replace value)).run tray').events) = _
      rw [play_append, hcontract]
      exact hlast

/-- **A text is played back**, group by group, to its total if it has one. -/
theorem play_total (t : Text) (tray : Tray σ) : ∃ last,
    (start t).play ((resolveGroups t >>= Resolution.total).run tray).events = some last ∧ last.phase = .ready ∧
      ∀ total, ((resolveGroups t >>= Resolution.total).run tray).result = .ok total →
        Group.find? last.text = none ∧ last.Shows total := by
  induction t using group_induction generalizing tray with
  | loose t hloose =>
    have hfind : Group.find? t = none := Group.find?_eq_none_iff.mpr hloose
    have hstart : start t = ⟨t, t, .ready⟩ := by rw [start, hfind]; rfl
    obtain ⟨last, hlast, hvalue⟩ := play_reduce t t tray
    rw [total_of_loose hloose, hstart]
    exact ⟨⟨t, last, .ready⟩, hlast, rfl, fun total htotal => ⟨hfind, hvalue total htotal⟩⟩
  | group t g hfind ih =>
    -- the events of the inside come first, then that of the group, and those of the text with its value
    have hstart : start t = ⟨t, g.inside, .ready⟩ := by rw [start, hfind]; rfl
    obtain ⟨last, hlast, hvalue⟩ := play_reduce t g.inside tray
    rw [total_of_group hfind, hstart, Play.run_bind]
    rcases hrun : (reduce g.inside).run tray with ⟨fault | value, tray', events⟩
    · rw [hrun] at hlast
      exact ⟨⟨t, last, .ready⟩, hlast, rfl, fun _ h => by cases h⟩
    · rw [hrun] at hlast hvalue
      obtain ⟨last', hlast', hphase, htotal⟩ := ih value tray'
      have hgroup : (⟨t, last, .ready⟩ : Playback).read (.resolvedGroup g.text value) =
          some (start (g.replace value)) := read_resolvedGroup_eq_some.mpr ⟨g, hfind, rfl, hvalue value rfl, rfl⟩
      refine ⟨last', ?_, hphase, htotal⟩
      show play _ (events ++ ([.resolvedGroup g.text value] ++ _)) = _
      rw [play_append, hlast, Option.bind_some, List.singleton_append, play_cons, hgroup]
      exact hlast'

/-- An evaluation is the total of its text, and tells of it in the end. -/
theorem run_evaluate_total (t : Text) (tray : Tray σ) : (evaluate t).run tray =
    match (resolveGroups (unquote t) >>= Resolution.total).run tray.reset with
    | ⟨.ok total, tray', events⟩ => ⟨.ok total, tray', events ++ [.evaluated t total tray'.booked]⟩
    | ⟨.error fault, tray', events⟩ => ⟨.error fault, tray', events⟩ := by
  rw [evaluate_eq_bind, Play.run_bind, Play.run_reset]
  show Outcome.after [] (Play.run (_ >>= _) tray.reset) = _
  rw [Play.run_bind]
  rcases (resolveGroups (unquote t) >>= Resolution.total).run tray.reset with ⟨fault | total, tray', events⟩ <;> rfl

/-- **An evaluation is played back**, and told of as over exactly if it has a total. -/
theorem play_evaluate (t : Text) (tray : Tray σ) : ∃ last,
    (start (unquote t)).play ((evaluate t).run tray).events = some last ∧
      match ((evaluate t).run tray).result with
      | .ok total => last.phase = .ended ∧
          ∃ front, ((evaluate t).run tray).events = front ++ [.evaluated t total ((evaluate t).run tray).tray.booked]
      | .error _ => last.phase = .ready := by
  obtain ⟨last, hlast, hphase, htotal⟩ := play_total (unquote t) tray.reset
  rw [run_evaluate_total]
  rcases hrun : (resolveGroups (unquote t) >>= Resolution.total).run tray.reset with ⟨fault | total, tray', events⟩
  · rw [hrun] at hlast
    exact ⟨last, hlast, hphase⟩
  · rw [hrun] at hlast htotal
    obtain ⟨hfind, hshows⟩ := htotal total rfl
    have hread : last.read (.evaluated t total tray'.booked) = some { last with phase := .ended } :=
      read_evaluated_eq_some.mpr ⟨hfind, hshows, rfl⟩
    refine ⟨{ last with phase := .ended }, ?_, rfl, events, rfl⟩
    show play _ (events ++ [.evaluated t total tray'.booked]) = _
    rw [play_append, hlast, Option.bind_some, play_cons, hread]
    rfl

end

/-! ## Dice that are told of -/

namespace Play

section

variable {σ α β : Type}

/-- The play books at least the dice that it tells of, and no others if it comes to a value. -/
def Tallies (play : Play σ α) : Prop := ∀ tray,
  tray.booked.toNat + diceCount (diceTold (play.run tray).events) ≤ (play.run tray).tray.booked.toNat ∧
    ∀ a, (play.run tray).result = .ok a →
      tray.booked.toNat + diceCount (diceTold (play.run tray).events) = (play.run tray).tray.booked.toNat

theorem tallies_of_still {play : Play σ α} (hstill : ∀ tray, (play.run tray).tray = tray)
    (hquiet : play.Tells fun event => event.dice? = none) : play.Tallies := by
  intro tray
  have htold : diceTold (play.run tray).events = [] := List.filterMap_eq_nil_iff.mpr (hquiet tray)
  rw [htold, hstill]
  exact ⟨Nat.le_refl _, fun _ _ => rfl⟩

/-- Plays in a row tally. -/
theorem Tallies.bind {play : Play σ α} {next : α → Play σ β} (h : play.Tallies) (hnext : ∀ a, (next a).Tallies) :
    (play >>= next).Tallies := by
  intro tray
  obtain ⟨hle, heq⟩ := h tray
  rw [run_bind]
  rcases hrun : play.run tray with ⟨fault | a, tray', events⟩
  · rw [hrun] at hle
    exact ⟨hle, fun _ hb => by cases hb⟩
  · rw [hrun] at heq
    obtain ⟨hle', heq'⟩ := hnext a tray'
    have hfirst := heq a rfl
    simp only [Outcome.after, diceTold_append, diceCount_append] at hfirst ⊢
    refine ⟨by omega, fun b hb => ?_⟩
    have hb' := heq' b hb
    omega

end

variable {σ : Type} [Roller σ]

/-- Dice are told of once they have a total. Before, they are booked. -/
theorem tallies_throw (dice : Dice) : (Play.throw dice : Play σ Int).Tallies := by
  intro tray
  cases hbook : tray.book dice.count with
  | none =>
    rw [run_roll_of_no_book hbook]
    exact ⟨Nat.le_refl _, fun _ h => by cases h⟩
  | some booked =>
    obtain ⟨-, -, hbooked, -⟩ := Tray.book_eq_some hbook
    rw [run_roll_of_book hbook]
    cases (dice.faces booked.roller).1 with
    | none =>
      refine ⟨?_, fun _ h => by cases h⟩
      show tray.booked.toNat + 0 ≤ booked.booked.toNat
      omega
    | some total =>
      have htally : tray.booked.toNat + diceCount [dice] = booked.booked.toNat := hbooked.symm
      exact ⟨htally.le, fun _ _ => htally⟩

/-- **So all plays of the machine tally**, up to where they take dice back. -/
theorem parametric_tallies : Parametric (σ := σ) fun p (_ : Play σ _) => p.Tallies where
  ofExcept result := tallies_of_still (fun _ => rfl) (tells_ofExcept result)
  tell _ h := tallies_of_still (fun _ => rfl) (tells_tell (Event.dice?_of_ne h))
  booked := tallies_of_still (fun _ => rfl) fun _ _ h => by cases h
  throw := tallies_throw
  bind := Tallies.bind

end Play

section

variable {σ : Type} [Roller σ]

/-! ## Outcomes that are played back -/

open Playback

/-- What the events of an outcome say of the evaluation of `t`: each of them fits what is played back of those in front,
and leaves nothing open; `evaluated` stands last, for the total; and dice that are told of have been booked, all of them
if there is a total. -/
structure Outcome.PlaysBack (outcome : Outcome σ UInt64) (t : Text) : Prop where
  play : ∃ last, (start (unquote t)).play outcome.events = some last
  substituting : ∀ front rule matched value rest,
    outcome.events = front ++ .substituting rule matched value :: rest →
      ∃ p m rest', (start (unquote t)).play front = some p ∧ rule.occurrence? p.buffer = some m ∧ m.text = matched ∧
        rest = .reduced (m.replace value) :: rest'
  reduced : ∀ front buffer rest, outcome.events = front ++ .reduced buffer :: rest →
    ∃ p, (start (unquote t)).play front = some p ∧ p.buffer = buffer
  rolled : ∀ front dice total rest, outcome.events = front ++ .rolled dice total :: rest →
    ∃ matched rest', readDice matched = .ok dice ∧ rest = .substituting .dice matched total.toNat :: rest'
  dice : ∀ front matched value rest, outcome.events = front ++ .substituting .dice matched value :: rest →
    ∃ front' dice total, front = front' ++ [.rolled dice total] ∧ value = total.toNat
  resolvedGroup : ∀ front group value rest, outcome.events = front ++ .resolvedGroup group value :: rest →
    ∃ p g, (start (unquote t)).play front = some p ∧ Group.find? p.text = some g ∧ g.text = group ∧ p.Shows value
  evaluated : ∀ front instruction total rolls rest,
    outcome.events = front ++ .evaluated instruction total rolls :: rest →
      rest = [] ∧ instruction = t ∧ outcome.result = .ok total ∧ rolls = outcome.tray.booked
  total : ∀ total, outcome.result = .ok total →
    (∃ front, outcome.events = front ++ [.evaluated t total outcome.tray.booked]) ∧
      diceCount (diceTold outcome.events) = outcome.tray.booked.toNat ∧
        (groupValues outcome.events).length = t.count '('
  booked : diceCount (diceTold outcome.events) ≤ outcome.tray.booked.toNat

/-- An evaluation has booked the dice that it tells of, and others only if it fails. -/
theorem diceCount_evaluate (t : Text) (tray : Tray σ) :
    diceCount (diceTold ((evaluate t).run tray).events) ≤ ((evaluate t).run tray).tray.booked.toNat ∧
      ∀ total, ((evaluate t).run tray).result = .ok total →
        diceCount (diceTold ((evaluate t).run tray).events) = ((evaluate t).run tray).tray.booked.toNat := by
  have h := (Play.parametric_tallies.counting t : (counting t : Play σ UInt64).Tallies) tray.reset
  rw [run_evaluate]
  simpa [Tray.reset] using h

/-- A total that is told of is that of the evaluation, and nothing is told behind it. -/
theorem eq_of_evaluated {t instruction : Text} {tray : Tray σ} {front rest : List Event} {total rolls : UInt64}
    (h : ((evaluate t).run tray).events = front ++ .evaluated instruction total rolls :: rest) :
    rest = [] ∧ instruction = t ∧ ((evaluate t).run tray).result = .ok total ∧
      rolls = ((evaluate t).run tray).tray.booked := by
  obtain ⟨last, hplay, hlast⟩ := play_evaluate t tray
  obtain ⟨rfl, hended⟩ := eq_nil_of_evaluated (h ▸ hplay)
  cases hresult : ((evaluate t).run tray).result with
  | error fault =>
    rw [hresult] at hlast
    rw [hlast] at hended
    cases hended
  | ok total' =>
    rw [hresult] at hlast
    obtain ⟨-, front', hevents⟩ := hlast
    rw [hevents] at h
    obtain ⟨-, heq⟩ := List.append_inj' h rfl
    obtain ⟨rfl, rfl, rfl⟩ := Event.evaluated.injEq .. ▸ (List.cons.inj heq).1
    exact ⟨rfl, rfl, rfl, rfl⟩

/-- **The events of an evaluation play it back**, whether it has a total or fails. The leftmost occurrence of a rule is the
text that is told to be replaced, and the buffers, the groups, their values and the total that are told of are those that
are played back. Dice are rolled right in front of where their total takes their place. As many are told of as are booked
if there is a total, and no more if there is none; for a total, a group has been resolved for each `(`. -/
theorem evaluate_plays_back (t : Text) (tray : Tray σ) : ((evaluate t).run tray).PlaysBack t := by
  obtain ⟨last, hplay, hlast⟩ := play_evaluate t tray
  have hclosed : last.phase.Closed := by
    cases hresult : ((evaluate t).run tray).result with
    | error fault => rw [hresult] at hlast; exact Or.inl hlast
    | ok total => rw [hresult] at hlast; exact Or.inr hlast.1
  obtain ⟨hbooked, hall⟩ := diceCount_evaluate t tray
  refine
    { play := ⟨last, hplay⟩
      substituting := fun front rule matched value rest h => exists_reduced (h ▸ hplay) hclosed
      reduced := fun front buffer rest h => buffer_of_reduced (h ▸ hplay)
      rolled := fun front dice total rest h => exists_substituting (h ▸ hplay) hclosed
      dice := fun front matched value rest h => exists_rolled (h ▸ hplay) rfl
      resolvedGroup := fun front group value rest h => shows_of_resolvedGroup (h ▸ hplay)
      evaluated := fun front instruction total rolls rest h => eq_of_evaluated h
      total := fun total htotal => ?_
      booked := hbooked }
  rw [htotal] at hlast
  refine ⟨hlast.2, hall total htotal, ?_⟩
  rw [groupValues, List.length_filterMap_eq_countP]
  exact (spends_groups t tray).2 total htotal

end

end TabletopDice
