import TabletopDice.Proofs.Digits
import TabletopDice.Proofs.RowReduction

/-!
# Passes over a text and over its tokens in lock step

A pass cuts an occurrence out of a text, by byte offsets, and writes a number in its place. Reading the new text again
gives the old tokens, with the tokens of the number in the place of those of the occurrence
(`onePass_replaces_tokens`).
-/

namespace TabletopDice

open Lexeme

/-- An occurrence of a subtraction that falls below zero: its left numeral reads as `l`, its right one as `r`. -/
def Match.Deficit (rule : Rule) (m : Match) (l r : UInt64) : Prop :=
  rule = .binary .subtract ∧ l < r ∧ ∃ a b, entries m.matched = [(.integer, a), (.minus, ['-']), (.integer, b)] ∧
    Numeral.read a = .ok l ∧ Numeral.read b = .ok r

/-- The text around an occurrence, by byte offsets. -/
theorem replace_eq_of_occurrence? {rule : Rule} {t : Text} {m : Match} (h : rule.occurrence? t = some m)
    (value : Int) :
    m.replace value = Text.takeBytes m.span.start t ++ Numeral.writeInt value ++ Text.dropBytes m.span.stop t := by
  have ht := Rule.text_eq_of_occurrence? h
  have hstart : Text.takeBytes m.span.start t = join m.before := by
    rw [ht, List.append_assoc]; exact Text.takeBytes_byteSize_append _ _
  have hstop : Text.dropBytes m.span.stop t = join m.after := by
    have hspan : m.span.stop = Text.byteSize (join m.before ++ m.text) := by
      rw [Text.byteSize_append]; rfl
    rw [hspan, ht, Text.dropBytes_byteSize_append]
  rw [hstart, hstop]
  rfl

/-- The text at the span of an occurrence. -/
theorem slice_span_of_occurrence? {rule : Rule} {t : Text} {m : Match} (h : rule.occurrence? t = some m) :
    t.slice m.span = m.text := by
  rw [Rule.text_eq_of_occurrence? h]
  exact Text.slice_append _ _ _

section

variable {σ : Type} [Roller σ]

/-- A pass that replaces something replaces an occurrence by its value. -/
theorem occurrence_of_onePass {t next : Text} {tray tray' : Tray σ} {rule : Rule} {events : List Event}
    (h : (onePass t).run tray = ⟨.ok (.replaced rule next), tray', events⟩) :
    ∃ m value, rule.occurrence? t = some m ∧ next = m.replace value ∧
      ((rule.valueOf m.text).run tray).result = .ok value := by
  unfold onePass at h
  split at h
  · cases h
  · split at h
    · cases h
    · rename_i r m hr
      rw [contract, bind_assoc, Play.run_bind] at h
      rcases hrun : (r.valueOf m.text).run tray with ⟨_ | value, tray'', events''⟩
      · rw [hrun] at h; cases h
      · rw [hrun] at h
        simp only [bind_assoc, pure_bind, Play.run_bind, Play.run_tell, Play.run_pure, Outcome.after] at h
        obtain ⟨hpass, -, -⟩ := Outcome.mk.injEq .. ▸ h
        obtain ⟨rfl, rfl⟩ := Pass.replaced.injEq .. ▸ Except.ok.inj hpass
        exact ⟨m, value, occurrence_of_redex? hr, rfl, by rw [hrun]⟩

/-- The value of dice is not negative. -/
theorem nonneg_of_dice {count : Option Digits} {sides : Digits} {value : Int} {tray : Tray σ}
    (h : ((Rule.dice.valueOf (diceText count sides)).run tray).result = .ok value) : 0 ≤ value := by
  have hyields : (Rule.dice.valueOf (diceText count sides) : Play σ Int).mute.Yields (0 ≤ ·) := by
    rw [mute_valueOf_diceText]
    exact (Play.yields_true _).bind fun total _ => Play.yields_pure (Int.natCast_nonneg total.toNat)
  exact hyields tray value h

/-- A rule gives a difference below zero if it has found one, and no negative value otherwise. -/
theorem deficit_of_value {rule : Rule} {t : Text} {m : Match} (h : rule.occurrence? t = some m) {value : Int}
    {tray : Tray σ} (hvalue : ((rule.valueOf m.text).run tray).result = .ok value) :
    (∃ l r, m.Deficit rule l r ∧ value = (l.toNat : Int) - r.toNat) ∨
      ((∀ l r, ¬ m.Deficit rule l r) ∧ 0 ≤ value) := by
  have hcases := Rule.cases_of_occurrence? h
  obtain ⟨before, matched, after⟩ := m
  rcases hcases with ⟨rfl, count, sides, rfl⟩ | ⟨op, dl, dr, rfl, rfl⟩
  · refine Or.inr ⟨fun l r hdef => ?_, ?_⟩
    · cases hdef.1
    · rw [Match.text, join_diceRow] at hvalue
      exact nonneg_of_dice hvalue
  · rw [Match.text, join_operatorRow, Rule.valueOf, valueOf_operatorText, Play.run_ofExcept] at hvalue
    obtain ⟨a, b, ha, hb, happly⟩ := combine_eq_ok hvalue
    by_cases hop : op = .subtract
    · subst hop
      obtain rfl : value = (a.toNat : Int) - b.toNat := (Except.ok.inj happly).symm
      rcases Nat.lt_or_ge a.toNat b.toNat with hlt | hge
      · exact Or.inl ⟨a, b, ⟨rfl, hlt, dl.text, dr.text, rfl, Digits.read_eq_ok_iff.mp ha,
          Digits.read_eq_ok_iff.mp hb⟩, rfl⟩
      · refine Or.inr ⟨?_, by omega⟩
        rintro l r ⟨-, hlt, la, rb, hentries, hl, hr⟩
        obtain ⟨rfl, -, rfl⟩ : dl.text = la ∧ _ ∧ dr.text = rb := by
          simpa [entries, operatorRow, Digits.lexeme, Lexeme.kind, Lexeme.text] using hentries
        rw [Digits.read_eq_ok_iff.mp ha] at hl
        rw [Digits.read_eq_ok_iff.mp hb] at hr
        have hlr : l.toNat < r.toNat := hlt
        rw [← Except.ok.inj hl, ← Except.ok.inj hr] at hlr
        omega
    · refine Or.inr ⟨fun l r hdef => hop ?_, apply_nonneg hop happly⟩
      exact Rule.binary.inj hdef.1

/-- **A pass replaces tokens and touches no other**, and so runs of passes over a text and over its tokens stay in
lock step. -/
theorem onePass_replaces_tokens (t : Text) (tray : Tray σ) :
    (∀ rule next tray' events, (onePass t).run tray = ⟨.ok (.replaced rule next), tray', events⟩ →
      ∃ m value, rule.occurrence? t = some m ∧ ((rule.valueOf m.text).run tray).result = .ok value ∧
        t.slice m.span = m.text ∧
        next = Text.takeBytes m.span.start t ++ Numeral.writeInt value ++ Text.dropBytes m.span.stop t ∧
        scan t = entries m.before ++ entries m.matched ++ entries m.after ∧
        (m.matched.length = 2 ∨ m.matched.length = 3) ∧
        ((∃ l r, m.Deficit rule l r ∧ scan next = entries m.before ++
            [(.minus, ['-']), (.integer, Numeral.write (r.toNat - l.toNat))] ++ entries m.after) ∨
          ((∀ l r, ¬ m.Deficit rule l r) ∧ 0 ≤ value ∧ scan next = entries m.before ++
            [(.integer, Numeral.write value.toNat)] ++ entries m.after))) ∧
      (passes t tray).map (fun step => (lexemes step.1, step.2.toRow)) = rowPasses (lexemes t) tray ∧
      (reduce t : Play σ UInt64) = reduceRow (lexemes t) := by
  refine ⟨?_, map_passes_eq t tray, reduce_eq_reduceRow t⟩
  intro rule next tray' events hrun
  obtain ⟨m, value, hm, rfl, hvalue⟩ := occurrence_of_onePass hrun
  have hrow : scan t = entries m.before ++ entries m.matched ++ entries m.after := by
    rw [scan_eq, Rule.row_eq_of_find? hm, entries_append, entries_append]
  have hnext : scan (m.replace value) = entries m.before ++ entries (integerRow value) ++ entries m.after := by
    rw [scan_eq, lexemes_replace hm, Match.rewrite, entries_append, entries_append]
  have hlength : m.matched.length = 2 ∨ m.matched.length = 3 := by
    have hredex := Rule.redex_of_find? hm
    revert hredex
    generalize m.matched = matched
    rintro (_ | _ | _)
    · exact Or.inl rfl
    · exact Or.inr rfl
    · exact Or.inr rfl
  refine ⟨m, value, hm, hvalue, slice_span_of_occurrence? hm, replace_eq_of_occurrence? hm value, hrow, hlength, ?_⟩
  rcases deficit_of_value hm hvalue with ⟨l, r, hdef, rfl⟩ | ⟨hdef, hpos⟩
  · refine Or.inl ⟨l, r, hdef, ?_⟩
    have hlt : l.toNat < r.toNat := hdef.2.1
    obtain ⟨n, hn⟩ : ∃ n, r.toNat - l.toNat = n + 1 := ⟨r.toNat - l.toNat - 1, by omega⟩
    have hneg : (l.toNat : Int) - r.toNat = .negSucc n := by omega
    rw [hnext, hneg, hn]
    rfl
  · refine Or.inr ⟨hdef, hpos, ?_⟩
    obtain ⟨n, rfl⟩ := Int.eq_ofNat_of_zero_le hpos
    rw [hnext]
    rfl

end
end TabletopDice
