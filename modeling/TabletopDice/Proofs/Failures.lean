import TabletopDice.Proofs.Acceptance
import TabletopDice.Proofs.Pass

/-!
# Where an evaluation fails

An evaluation that has no total has come to a buffer and a tray on which it stops.

- `PassesTo` follows the passes over a buffer, and `Reaches` follows the passes over all buffers of an evaluation: those
  over the groups, one after the other, and those over the text that is left;
- `Stops` lists the faults on which a buffer is given up: that of its redex, that of its number, or that there is no
  redex;
- an evaluation fails exactly with the faults on which the buffers that it reaches are given up
  (`evaluate_failsWith_iff`).
-/

namespace TabletopDice

section

variable {σ α β : Type}

/-- From the first tray, the play fails with the fault and leaves the second tray. -/
def Play.FailsWith (play : Play σ α) (tray : Tray σ) (fault : Fault) (last : Tray σ) : Prop :=
  (play.run tray).result = .error fault ∧ (play.run tray).tray = last

/-- Plays in a row fail as the first one does, or as one behind a value of it. -/
theorem Play.failsWith_bind_iff {play : Play σ α} {next : α → Play σ β} {tray : Tray σ} {fault : Fault}
    {last : Tray σ} : (play >>= next).FailsWith tray fault last ↔ play.FailsWith tray fault last ∨
      ∃ a, (play.run tray).result = .ok a ∧ (next a).FailsWith (play.run tray).tray fault last := by
  unfold FailsWith
  rw [run_bind]
  rcases play.run tray with ⟨fault' | a, tray', events⟩
  · simp
  · simp [Outcome.after]

/-- A play that only tells something does not fail. -/
theorem Play.failsWith_tell_bind_iff {event : Event} {next : Play σ β} {tray : Tray σ} {fault : Fault} {last : Tray σ} :
    (Play.tell event >>= fun _ => next).FailsWith tray fault last ↔ next.FailsWith tray fault last := by
  rw [failsWith_bind_iff]
  simp [FailsWith]

end

section

variable {σ : Type} [Roller σ]

/-- Passes lead from the first buffer and tray to the second ones. -/
inductive PassesTo : Text → Tray σ → Text → Tray σ → Prop
  | here (t : Text) (tray : Tray σ) : PassesTo t tray t tray
  | pass {t next b : Text} {tray tray' last : Tray σ} {rule : Rule} {events : List Event} :
      (onePass t).run tray = ⟨.ok (.replaced rule next), tray', events⟩ → PassesTo next tray' b last →
      PassesTo t tray b last

/-- A buffer is given up with the fault, and leaves the second tray: its redex fails, or it is a numeral that cannot be
read, or it is neither a numeral nor has a redex. -/
inductive Stops : Text → Tray σ → Fault → Tray σ → Prop
  | redex {t : Text} {rule : Rule} {m : Match} {tray last : Tray σ} {fault : Fault} :
      redex? t = some (rule, m) → (rule.valueOf m.text : Play σ Int).FailsWith tray fault last → Stops t tray fault last
  | numeral {d : Digits} {fault : Fault} (tray : Tray σ) : d.read = .error fault → Stops d.text tray fault tray
  | stuck {t : Text} (tray : Tray σ) : redex? t = none → isNumeral t = false → Stops t tray (.malformed t) tray

/-- The total of a text, begun on the first tray, comes to the buffer on the second tray: by passes over the inside of
its first group, or behind that group, or by passes over a text without groups. -/
inductive Reaches : Text → Tray σ → Text → Tray σ → Prop
  | inside {t b : Text} {g : Group} {tray last : Tray σ} : Group.find? t = some g → PassesTo g.inside tray b last →
      Reaches t tray b last
  | behind {t b : Text} {g : Group} {value : UInt64} {tray last : Tray σ} : Group.find? t = some g →
      ((reduce g.inside).run tray).result = .ok value →
      Reaches (g.replace value) ((reduce g.inside).run tray).tray b last → Reaches t tray b last
  | loose {t b : Text} {tray last : Tray σ} : Loose t → PassesTo t tray b last → Reaches t tray b last

/-! ## Reductions -/

/-- A numeral is a text of digits. -/
theorem exists_digits_of_isNumeral {t : Text} (h : isNumeral t) : ∃ d : Digits, t = d.text := by
  obtain ⟨ds, hrow⟩ := exists_of_isNumeralRow h
  have hproper : (Lexeme.numeral ds).Proper := proper_of_mem_lexemes _ (by rw [hrow]; exact List.mem_cons_self)
  refine ⟨⟨ds, hproper.1, hproper.2⟩, ?_⟩
  rw [← join_lexemes t, hrow]
  simp [Lexeme.text]

/-- To tell of the value of a redex changes nothing about its faults. -/
theorem failsWith_contract_iff {rule : Rule} {m : Match} {tray last : Tray σ} {fault : Fault} :
    (contract rule m : Play σ Int).FailsWith tray fault last ↔
      (rule.valueOf m.text : Play σ Int).FailsWith tray fault last := by
  unfold Play.FailsWith
  rcases hrun : (rule.valueOf m.text : Play σ Int).run tray with ⟨fault' | value, tray', events⟩
  · rw [run_contract_of_error hrun]
  · rw [run_contract_of_ok hrun]

/-- A reduction fails where its buffer is given up. -/
theorem Stops.failsWith {t : Text} {tray last : Tray σ} {fault : Fault} (h : Stops t tray fault last) :
    (reduce t : Play σ UInt64).FailsWith tray fault last := by
  cases h with
  | redex hredex hvalue =>
    rw [reduce_of_redex hredex, Play.failsWith_bind_iff]
    exact Or.inl (failsWith_contract_iff.mpr hvalue)
  | numeral tray hread =>
    rw [reduce_digits, hread]
    exact ⟨rfl, rfl⟩
  | stuck tray hredex hnum =>
    rw [reduce_of_no_redex hredex, if_neg (by simp [hnum])]
    exact ⟨rfl, rfl⟩

/-- A reduction fails as a reduction of a later buffer does. -/
theorem PassesTo.failsWith {t b : Text} {tray mid last : Tray σ} {fault : Fault} (h : PassesTo t tray b mid)
    (hfails : (reduce b : Play σ UInt64).FailsWith mid fault last) :
    (reduce t : Play σ UInt64).FailsWith tray fault last := by
  induction h with
  | here t tray => exact hfails
  | pass hrun _ ih =>
    have hnext := ih hfails
    rw [reduce_eq_bind, Play.failsWith_bind_iff, hrun]
    exact Or.inr ⟨_, rfl, hnext⟩

/-- **A reduction that fails comes to a buffer that is given up.** -/
theorem exists_stops_of_reduce {t : Text} {tray last : Tray σ} {fault : Fault}
    (h : (reduce t : Play σ UInt64).FailsWith tray fault last) :
    ∃ b mid, PassesTo t tray b mid ∧ Stops b mid fault last := by
  induction t using buffer_induction generalizing tray with
  | normal t hredex =>
    refine ⟨t, tray, .here t tray, ?_⟩
    cases hnum : isNumeral t with
    | true =>
      obtain ⟨d, rfl⟩ := exists_digits_of_isNumeral hnum
      rw [reduce_digits] at h
      obtain ⟨hread, rfl⟩ := h
      exact .numeral tray hread
    | false =>
      rw [reduce_of_no_redex hredex, if_neg (by simp [hnum])] at h
      obtain ⟨hfault, rfl⟩ := h
      obtain rfl := Except.error.inj hfault
      exact .stuck tray hredex hnum
  | redex t rule m hredex ih =>
    rw [reduce_of_redex hredex, Play.failsWith_bind_iff] at h
    rcases h with h | ⟨value, hvalue, h⟩
    · exact ⟨t, tray, .here t tray, .redex hredex (failsWith_contract_iff.mp h)⟩
    · obtain ⟨b, mid, hpasses, hstops⟩ := ih value h
      refine ⟨b, mid, ?_, hstops⟩
      rcases hrun : (contract rule m : Play σ Int).run tray with ⟨fault' | value', tray', events⟩
      · rw [hrun] at hvalue
        cases hvalue
      · rw [hrun] at hvalue hpasses
        obtain rfl := Except.ok.inj hvalue
        have hpass := run_onePass_of_redex hredex tray
        rw [hrun] at hpass
        exact .pass hpass hpasses

/-! ## Evaluations -/

/-- The total of a text fails as the reduction of a buffer that it reaches. -/
theorem Reaches.failsWith {t b : Text} {tray mid last : Tray σ} {fault : Fault} (h : Reaches t tray b mid)
    (hfails : (reduce b : Play σ UInt64).FailsWith mid fault last) :
    (resolveGroups t >>= Resolution.total : Play σ UInt64).FailsWith tray fault last := by
  induction h with
  | inside hfind hpasses =>
    rw [total_of_group hfind, Play.failsWith_bind_iff]
    exact Or.inl (hpasses.failsWith hfails)
  | behind hfind hvalue _ ih =>
    rw [total_of_group hfind, Play.failsWith_bind_iff]
    refine Or.inr ⟨_, hvalue, ?_⟩
    rw [Play.failsWith_tell_bind_iff]
    exact ih hfails
  | loose hloose hpasses =>
    rw [total_of_loose hloose]
    exact hpasses.failsWith hfails

/-- A text without a total has come to a buffer that is given up. -/
theorem exists_stops_of_total {t : Text} {tray last : Tray σ} {fault : Fault}
    (h : (resolveGroups t >>= Resolution.total : Play σ UInt64).FailsWith tray fault last) :
    ∃ b mid, Reaches t tray b mid ∧ Stops b mid fault last := by
  induction t using group_induction generalizing tray with
  | loose t hloose =>
    rw [total_of_loose hloose] at h
    obtain ⟨b, mid, hpasses, hstops⟩ := exists_stops_of_reduce h
    exact ⟨b, mid, .loose hloose hpasses, hstops⟩
  | group t g hfind ih =>
    rw [total_of_group hfind, Play.failsWith_bind_iff] at h
    rcases h with h | ⟨value, hvalue, h⟩
    · obtain ⟨b, mid, hpasses, hstops⟩ := exists_stops_of_reduce h
      exact ⟨b, mid, .inside hfind hpasses, hstops⟩
    · obtain ⟨b, mid, hreaches, hstops⟩ := ih value (Play.failsWith_tell_bind_iff.mp h)
      exact ⟨b, mid, .behind hfind hvalue hreaches, hstops⟩

/-- **An evaluation fails with the faults on which the buffers that it reaches are given up**, and with no others. -/
theorem evaluate_failsWith_iff {t : Text} {tray last : Tray σ} {fault : Fault} :
    (evaluate t : Play σ UInt64).FailsWith tray fault last ↔
      ∃ b mid, Reaches (unquote t) tray.reset b mid ∧ Stops b mid fault last := by
  have hmute : (evaluate t : Play σ UInt64).FailsWith tray fault last ↔
      (resolveGroups (unquote t) >>= Resolution.total : Play σ UInt64).FailsWith tray.reset fault last := by
    show (evaluate t : Play σ UInt64).mute.FailsWith tray fault last ↔ _
    rw [mute_evaluate]
    rfl
  rw [hmute]
  constructor
  · exact exists_stops_of_total
  · rintro ⟨b, mid, hreaches, hstops⟩
    exact hreaches.failsWith hstops.failsWith

end

end TabletopDice
