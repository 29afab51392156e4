import TabletopDice.Proofs.Faces
import TabletopDice.Proofs.RedexFaults

/-!
# Dice refused without a budget

Without a budget, a tray refuses dice only where their number can no longer be counted in 64 bits.

- A buffer is given up because dice are refused exactly if its redex names dice that the tray does not admit
  (`stops_refused_iff`), and the tray is left as it is then;
- so an evaluation without a budget is refused exactly if it reaches such dice (`evaluate_refused_iff`). The dice in front
  of them have all been booked. There are texts of this kind (`evaluate_refuses_without_budget`).
-/

namespace TabletopDice

section

variable {σ : Type} [Roller σ]

/-- Dice are refused exactly if the tray does not admit them, and leave it as it is then. -/
theorem failsWith_throw_iff {dice : Dice} {tray last : Tray σ} :
    (Play.throw dice).FailsWith tray .tooManyDice last ↔
      tray.limit < tray.booked.toNat + dice.count.toNat ∧ last = tray := by
  unfold Play.FailsWith
  rw [result_throw]
  constructor
  · rintro ⟨hfault, rfl⟩
    by_cases hrefused : tray.limit < tray.booked.toNat + dice.count.toNat
    · rw [run_roll_of_no_book (Tray.book_eq_none_iff.mpr hrefused)]
      exact ⟨hrefused, rfl⟩
    · rw [if_neg hrefused] at hfault
      cases hfaces : (dice.faces tray.roller).1 <;> rw [hfaces] at hfault <;> cases hfault
  · rintro ⟨hrefused, rfl⟩
    rw [if_pos hrefused, run_roll_of_no_book (Tray.book_eq_none_iff.mpr hrefused)]
    exact ⟨rfl, rfl⟩

/-- **A buffer is given up because dice are refused exactly if its redex names dice that the tray does not admit.** -/
theorem stops_refused_iff {b : Text} {tray last : Tray σ} : Stops b tray .tooManyDice last ↔
    last = tray ∧ ∃ m dice, redex? b = some (.dice, m) ∧ readDice m.text = .ok dice ∧
      tray.limit < tray.booked.toNat + dice.count.toNat := by
  have hvalue : ∀ t, (Rule.dice.valueOf t : Play σ Int) = Play.ofExcept (readDice t) >>= Play.throw := fun _ => rfl
  constructor
  · intro hstops
    cases hstops with
    | @redex _ rule m _ _ _ hredex hfails =>
      rcases Rule.cases_of_occurrence? (occurrence_of_redex? hredex) with
        ⟨rfl, count, sides, hm⟩ | ⟨op, l, r, rfl, hm⟩
      · rw [hvalue, Play.failsWith_bind_iff] at hfails
        rcases hfails with ⟨hread, -⟩ | ⟨dice, hread, hfails⟩
        · -- the numerals of a redex can only be too large, or have no sides
          rw [Match.text, hm, join_diceRow, readDice_diceText] at hread
          rcases diceOf_eq_error hread with h | ⟨h, -⟩ <;> cases h
        · obtain ⟨hrefused, hlast⟩ := failsWith_throw_iff.mp hfails
          exact ⟨hlast, m, dice, hredex, hread, hrefused⟩
      · have hresult := hfails.1
        rw [run_valueOf_operatorRow hm] at hresult
        rcases combine_eq_error hresult with h | h <;> cases h
    | numeral _ hread => cases Digits.read_eq_error hread
  · rintro ⟨rfl, m, dice, hredex, hread, hrefused⟩
    apply Stops.redex hredex
    rw [hvalue, Play.failsWith_bind_iff]
    exact Or.inr ⟨dice, hread, failsWith_throw_iff.mpr ⟨hrefused, rfl⟩⟩

/-- **Without a budget, an evaluation is refused exactly if it reaches dice that can no longer be counted**: with those
that it has rolled, there are `2 ^ 64` or more. -/
theorem evaluate_refused_iff (t : Text) (s : σ) (earlier : UInt64) :
    let out := (evaluate t).run ⟨s, earlier, none⟩
    ∃ rolled, out.Rolls ⟨s, 0, none⟩ rolled ∧
      (out.result = .error .tooManyDice ↔ ∃ b m dice, Reaches (unquote t) ⟨s, 0, none⟩ b out.tray ∧
        redex? b = some (.dice, m) ∧ readDice m.text = .ok dice ∧
          UInt64.size ≤ diceCount rolled + dice.count.toNat) := by
  intro out
  obtain ⟨rolled, hrolls, -⟩ := parametric_budgeted.counting t (⟨s, 0, none⟩ : Tray σ) rfl
  have hout : out = (counting t).run ⟨s, 0, none⟩ := run_evaluate t _
  rw [← hout] at hrolls
  have hbooked : out.tray.booked.toNat = diceCount rolled := hrolls.takes.booked.trans (Nat.zero_add _)
  have hlimit : out.tray.limit = UInt64.size - 1 := by
    rw [Tray.limit, hrolls.takes.budget]
    rfl
  refine ⟨rolled, hrolls, ?_⟩
  constructor
  · intro hfault
    obtain ⟨b, mid, hreaches, hstops⟩ := evaluate_failsWith_iff.mp ⟨hfault, rfl⟩
    obtain ⟨hmid, m, dice, hredex, hread, hrefused⟩ := stops_refused_iff.mp hstops
    have hmid : mid = out.tray := hmid.symm
    subst hmid
    refine ⟨b, m, dice, hreaches, hredex, hread, ?_⟩
    omega
  · rintro ⟨b, m, dice, hreaches, hredex, hread, hlarge⟩
    have hstops : Stops b out.tray .tooManyDice out.tray := by
      refine stops_refused_iff.mpr ⟨rfl, m, dice, hredex, hread, ?_⟩
      have hsize : 0 < UInt64.size := by decide
      omega
    exact (evaluate_failsWith_iff.mpr ⟨b, out.tray, hreaches, hstops⟩).1

end

/-- With one die rolled, `2 ^ 64 - 1` more cannot be counted, although the roller shows faces of the dice and there is no
budget. -/
theorem evaluate_refuses_without_budget :
    Roller.Shows (σ := Cycle) (fun _ => True) (fun _ => 1) (fun die => die.sides.toNat) ∧
      ∃ (t : Text) (tray : Tray Cycle), tray.budget = none ∧ ((evaluate t).run tray).result = .error .tooManyDice := by
  let sides : Atom := .numeral (.ofNat 1)
  let most : Atom := .numeral (.ofNat 18446744073709551615)
  let e : Expression := (Chain.single (.die sides)).snoc .add (.dice (.atom most) most)
  have htext : e.text = "d1+18446744073709551615d18446744073709551615".toList := by decide +kernel
  have hresult : ((evaluate e.text).mute.run (⟨⟨[1], 0⟩, 0, none⟩ : Tray Cycle)).result = .error .tooManyDice := by
    rw [mute_evaluate_text]
    decide +kernel
  rw [htext] at hresult
  exact ⟨shows_cycle, _, _, rfl, hresult⟩

end TabletopDice
