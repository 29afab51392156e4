import TabletopDice.Proofs.Chain
import TabletopDice.Proofs.Resolution
import TabletopDice.Proofs.Shape

/-!
# The texts that have a total

Nothing in the evaluation names the language that it accepts. It is that of the well-shaped texts:

- what a pass leaves is read as what it replaces is, unless it is negative. So a text is well-shaped if what it is
  reduced to is (`yields_reduceRow`), and so is a text whose groups have been resolved (`yields_total`);
- on a well-shaped text without parentheses, passes first roll its dice; then it is a chain (`exists_chain`), of which
  all faults are known (`Chain.fails_reckon`);
- a well-shaped text is malformed only at dice without sides and at a negative difference (`evaluate_accepts`).
-/

namespace TabletopDice

open Lexeme

/-! ## The shape of what passes and groups leave -/

/-- An occurrence is read as an operand. -/
theorem Rule.read_text_of_find? {rule : Rule} {row : List Lexeme} {m : Match} (h : rule.find? row = some m)
    (hproper : ∀ x ∈ row, x.Proper) (s : Reading) : s.read m.text = some ⟨true, s.depth⟩ := by
  rcases Rule.cases_of_find? h hproper with ⟨-, count, sides, he⟩ | ⟨op, l, r, -, he⟩
  · rw [Match.text, he, join_diceRow, Reading.read_diceText]
  · rw [Match.text, he, join_operatorRow, Reading.read_operatorText]

/-- A text is well-shaped if it is after a pass. -/
theorem wellShaped_of_rewrite {rule : Rule} {row : List Lexeme} {m : Match} (h : rule.find? row = some m)
    (hproper : ∀ x ∈ row, x.Proper) {value : Int} (hshape : WellShaped (join (m.rewrite value))) :
    WellShaped (join row) := by
  rw [wellShaped_iff_read, join_rewrite, Match.replace] at hshape
  rw [wellShaped_iff_read, Rule.join_eq_of_find? h]
  refine Reading.read_exchange (fun s s' hread => ?_) hshape
  rw [Rule.read_text_of_find? h hproper, Reading.read_writeInt hread]

/-- A pass leaves a well-shaped text if its value is not negative. -/
theorem wellShaped_rewrite {rule : Rule} {row : List Lexeme} {m : Match} (h : rule.find? row = some m)
    (hproper : ∀ x ∈ row, x.Proper) (hshape : WellShaped (join row)) (n : Nat) :
    WellShaped (join (m.rewrite n)) := by
  rw [wellShaped_iff_read, Rule.join_eq_of_find? h] at hshape
  rw [wellShaped_iff_read, join_rewrite, Match.replace]
  refine Reading.read_exchange (fun s s' hread => ?_) hshape
  rw [← hread, Rule.read_text_of_find? h hproper]
  exact Reading.read_write n s

namespace Group

/-- The inside of a group in a well-shaped text is well-shaped. -/
theorem wellShaped_inside {t : Text} {g : Group} (h : find? t = some g) (hshape : WellShaped t) :
    WellShaped g.inside := by
  rw [wellShaped_iff_read, eq_of_find? h] at hshape
  obtain ⟨m, hfront, -⟩ := Reading.read_append_eq_some.mp hshape
  obtain ⟨m', -, hgroup⟩ := Reading.read_append_eq_some.mp hfront
  exact Reading.wellShaped_of_read_group (not_paren_of_find? h) hgroup

/-- A number may stand in the place of a group with a well-shaped inside. -/
theorem wellShaped_replace_iff {t : Text} {g : Group} (h : find? t = some g) (hinside : WellShaped g.inside)
    (value : UInt64) : WellShaped (g.replace value) ↔ WellShaped t := by
  have hgroup : ∀ s : Reading, s.read g.text = s.read (Numeral.write value.toNat) := by
    intro s
    rw [Reading.read_write]
    exact Reading.read_group (not_paren_of_find? h) hinside s
  rw [wellShaped_iff_read, wellShaped_iff_read, eq_of_find? h, replace]
  constructor
  · exact Reading.read_exchange fun s s' hread => (hgroup s).trans hread
  · exact Reading.read_exchange fun s s' hread => (hgroup s).symm.trans hread

end Group

section

variable {σ : Type} [Roller σ]

/-! ## Only well-shaped texts have a total -/

/-- **Only rows that spell well-shaped texts are reduced to a total.** -/
theorem yields_reduceRow {row : List Lexeme} (hproper : ∀ x ∈ row, x.Proper) :
    (reduceRow row : Play σ UInt64).Yields fun _ => WellShaped (join row) := by
  induction row using row_induction with
  | normal row hredex =>
    rw [reduceRow_of_no_redex hredex]
    split
    · rename_i hnumeral
      obtain ⟨ds, rfl⟩ := exists_of_isNumeralRow hnumeral
      have hds : (numeral ds).Proper := hproper _ (by simp)
      have hread := Reading.read_numeral ⟨ds, hds.1, hds.2⟩ {}
      exact fun _ _ _ => wellShaped_iff_read.mpr (by simpa [Lexeme.text] using hread)
    · exact fun _ _ h => by cases h
  | redex row rule m hredex ih =>
    have hfind := find?_of_rowRedex? hredex
    rw [reduceRow_of_redex hredex]
    refine (Play.yields_true _).bind fun value _ tray total htotal => ?_
    exact wellShaped_of_rewrite hfind hproper
      (ih value (proper_of_mem_rewrite hfind hproper value) tray total htotal)

/-- Only well-shaped texts are reduced to a total. -/
theorem yields_reduce (t : Text) : (reduce t : Play σ UInt64).Yields fun _ => WellShaped t := by
  have h : (reduceRow (lexemes t) : Play σ UInt64).Yields _ := yields_reduceRow proper_of_mem_lexemes
  rwa [join_lexemes, ← reduce_eq_reduceRow] at h

/-- The total of a text with a group is that of the text with the value of the group in its place. -/
theorem total_of_group {t : Text} {g : Group} (h : Group.find? t = some g) :
    (resolveGroups t >>= Resolution.total : Play σ UInt64) = reduce g.inside >>= fun value =>
      Play.tell (.resolvedGroup g.text value) >>= fun _ => resolveGroups (g.replace value) >>= Resolution.total :=
  resolveGroups_bind_of_group h fun _ => rfl

/-- The total of a text without groups is what it is reduced to. -/
theorem total_of_loose {t : Text} (h : Loose t) :
    (resolveGroups t >>= Resolution.total : Play σ UInt64) = reduce t := by
  rw [resolveGroups_of_loose h, pure_bind]
  rfl

/-- **Only well-shaped texts have a total.** -/
theorem yields_total (t : Text) :
    (resolveGroups t >>= Resolution.total : Play σ UInt64).Yields fun _ => WellShaped t := by
  induction t using group_induction with
  | loose t hloose =>
    rw [total_of_loose hloose]
    exact yields_reduce t
  | group t g hfind ih =>
    rw [total_of_group hfind]
    refine (yields_reduce g.inside).bind fun value hshape => ?_
    refine (Play.yields_true _).bind fun _ _ tray total htotal => ?_
    exact (Group.wellShaped_replace_iff hfind hshape value).mp (ih value tray total htotal)

end

/-! ## What a well-shaped text can be malformed at -/

/-- Dice without sides: a count or none, a `d`, and zeros. -/
def IsZeroSided (t : Text) : Prop :=
  ∃ count zeros, t = count ++ 'd' :: zeros ∧ (∀ c ∈ count, c.isDigit) ∧ zeros ≠ [] ∧ ∀ c ∈ zeros, c = '0'

/-- Digits behind one or more `-`. -/
def IsNegative (t : Text) : Prop :=
  ∃ n ds, t = List.replicate (n + 1) '-' ++ ds ∧ ds ≠ [] ∧ ∀ c ∈ ds, c.isDigit

/-- A fault that a well-shaped text may have: if the fault is that something is malformed, that is dice without sides or
a negative number. -/
def Excused (fault : Fault) : Prop := ∀ t, fault = .malformed t → IsZeroSided t ∨ IsNegative t

/-- Digits of the value zero are zeros. -/
theorem eq_zero_of_ofDigitChars {t : Text} (ht : ∀ c ∈ t, c.isDigit) {value : Nat}
    (h : Nat.ofDigitChars 10 t value = 0) : value = 0 ∧ ∀ c ∈ t, c = '0' := by
  induction t generalizing value with
  | nil => exact ⟨h, by simp⟩
  | cons c t ih =>
    rw [Nat.ofDigitChars_cons] at h
    obtain ⟨hvalue, hrest⟩ := ih (fun d hd => ht d (List.mem_cons_of_mem _ hd)) h
    refine ⟨by omega, fun d hd => ?_⟩
    rcases List.mem_cons.mp hd with rfl | hd
    · have hdigit := ht d List.mem_cons_self
      simp only [Char.isDigit, Bool.and_eq_true, decide_eq_true_eq] at hdigit
      have hlow : '0'.toNat ≤ d.toNat := hdigit.1
      exact Char.toNat_inj.mp (by omega)
    · exact hrest d hd

/-- Dice are malformed only without sides. -/
theorem excused_of_diceOf {count : Option Digits} {sides : Digits} {fault : Fault}
    (h : diceOf count sides = .error fault) : Excused fault := by
  rintro t rfl
  rcases diceOf_eq_error h with hfault | ⟨hfault, hvalue⟩
  · cases hfault
  · obtain rfl := Fault.malformed.inj hfault
    refine Or.inl ⟨count.elim [] Digits.text, sides.text, by cases count <;> rfl, ?_, sides.ne_nil,
      (eq_zero_of_ofDigitChars sides.isDigit hvalue).2⟩
    cases count with
    | none => simp
    | some count => exact count.isDigit

section

variable {σ : Type}

theorem fails_sweep (op : Operator) (c : Chain Signed) :
    (Play.ofExcept (c.sweep op) : Play σ (Chain Signed)).Fails Excused := by
  refine Play.fails_ofExcept fun fault h t ht => ?_
  rcases Chain.sweep_eq_error h with rfl | rfl <;> cases ht

theorem yields_sweep {op : Operator} {c : Chain Signed} (hplain : c.Plain) (hfrom : c.From (.binary op)) :
    (Play.ofExcept (c.sweep op) : Play σ (Chain Signed)).Yields fun swept =>
      swept.After (.binary op) ∧ (op ≠ .subtract → swept.Plain) :=
  fun _ _ h => Chain.sweep_after hplain hfrom h

/-- Digits alone are too large or a number, and digits behind `-` are negative. -/
theorem excused_of_total {s : Signed} {fault : Fault} (h : s.total = .error fault) : Excused fault := by
  rintro t rfl
  obtain ⟨_ | n, digits⟩ := s
  · cases Digits.read_eq_error (d := digits) h
  · refine Or.inr ⟨n, digits.text, ?_, digits.ne_nil, digits.isDigit⟩
    obtain rfl := Fault.malformed.inj (Except.error.inj h)
    exact Signed.join_row _

/-- **A chain without dice is malformed only at a negative difference.** -/
theorem fails_reckon {c : Chain Signed} (hplain : c.Plain) :
    (Play.ofExcept c.reckon : Play σ UInt64).Fails Excused := by
  simp only [Chain.reckon, Play.ofExcept_bind]
  refine (fails_sweep _ c).bind (yields_sweep hplain c.from_multiply) fun c hc => ?_
  refine (fails_sweep _ c).bind (yields_sweep (hc.2 (by decide)) (hc.1.next (by decide))) fun c hc => ?_
  refine (fails_sweep _ c).bind (yields_sweep (hc.2 (by decide)) (hc.1.next (by decide))) fun c hc => ?_
  refine (fails_sweep _ c).bind (yields_sweep (hc.2 (by decide)) (hc.1.next (by decide))) fun c hc => ?_
  refine Play.fails_ofExcept fun fault h => ?_
  cases c with
  | single s => exact excused_of_total h
  | snoc front o s => exact absurd hc.1 Chain.not_after_subtract

end

/-! ## Rows without dice -/

/-- Rows as texts without parentheses have them. -/
structure Bare (row : List Lexeme) : Prop where
  proper : ∀ x ∈ row, x.Proper
  separated : Separated row
  not_isParen : ∀ c, .mark c ∈ row → Group.isParen c = false

theorem bare_lexemes {t : Text} (h : ∀ c ∈ t, Group.isParen c = false) : Bare (lexemes t) where
  proper := proper_of_mem_lexemes
  separated := separated_lexemes t
  not_isParen c hc := h c (by
    rw [← join_lexemes t, join, List.mem_flatMap]
    exact ⟨_, hc, by simp [Lexeme.text]⟩)

theorem Bare.tail {x : Lexeme} {row : List Lexeme} (h : Bare (x :: row)) : Bare row where
  proper y hy := h.proper y (List.mem_cons_of_mem _ hy)
  separated := (List.isChain_cons.mp h.separated).2
  not_isParen c hc := h.not_isParen c (List.mem_cons_of_mem _ hc)

/-- No numeral follows a numeral. -/
theorem Bare.startsNumeral_tail {d : Digits} {row : List Lexeme} (h : Bare (d.lexeme :: row)) :
    startsNumeral row = false := by
  have hsep := (List.isChain_cons.mp h.separated).1
  rw [startsNumeral_eq, Option.any_eq_false]
  intro y hy
  cases hnum : y.isInteger with
  | false => rfl
  | true => exact absurd ⟨rfl, hnum⟩ (hsep y hy)

/-- A `d` with a numeral behind it is dice. -/
theorem find?_dice_ne_none (front : List Lexeme) (d : Digits) (rest : List Lexeme) :
    Rule.dice.find? (front ++ .mark 'd' :: d.lexeme :: rest) ≠ none := by
  intro h
  have hhead : Rule.dice.head? (diceRow none d ++ rest) = none := Rule.find?_eq_none_iff.mp h front _ rfl
  rw [Rule.head?_redex (redex_diceRow none d) rest] at hhead
  cases hhead

/-- Where an operand has to begin, a row without dice has a numeral. -/
theorem Bare.exists_numeral {row : List Lexeme} (h : Bare row) (hdice : Rule.dice.find? row = none) {s s' : Reading}
    (hread : s.read (join row) = some s') (hs : s.ready = false) (hs' : s'.ready = true) :
    ∃ (d : Digits) (rest : List Lexeme), row = d.lexeme :: rest := by
  induction row generalizing s with
  | nil =>
    obtain rfl := Option.some.inj hread
    rw [hs] at hs'
    cases hs'
  | cons x rest ih =>
    cases x with
    | numeral ds =>
      have hds : (numeral ds).Proper := h.proper _ List.mem_cons_self
      exact ⟨⟨ds, hds.1, hds.2⟩, rest, rfl⟩
    | mark c =>
      have hsplit : s.read (c :: join rest) = some s' := hread
      obtain ⟨m, hm, hrest⟩ := Reading.read_cons_eq_some.mp hsplit
      have hparen := h.not_isParen c List.mem_cons_self
      rcases Reading.step_eq_some_iff.mp hm with ⟨hc, -⟩ | ⟨rfl, rfl⟩ | ⟨rfl, -⟩ | ⟨rfl, -⟩ | ⟨-, hready, -⟩
      · exact absurd hc (h.proper _ List.mem_cons_self)
      · -- behind the last of several `d` stands a numeral
        obtain ⟨d, rest, rfl⟩ := ih h.tail (Rule.find?_eq_none_of_append [.mark 'd'] hdice) hrest rfl
        exact absurd hdice (find?_dice_ne_none [] d rest)
      · cases hparen
      · cases hparen
      · rw [hs] at hready
        cases hready

/-- Behind an operand, a row without dice is an operator and an operand, again and again. -/
theorem Bare.exists_chain_append {row : List Lexeme} (h : Bare row) (hdice : Rule.dice.find? row = none)
    {s s' : Reading} (hread : s.read (join row) = some s') (hs' : s'.ready = true) (hstart : startsNumeral row = false)
    {front : Chain Signed} (hfront : front.Plain) :
    ∃ c : Chain Signed, c.Plain ∧ c.row Signed.row = front.row Signed.row ++ row := by
  induction hn : row.length using Nat.strongRecOn generalizing row s front with
  | ind n ih =>
    rcases row with _ | ⟨ds | c, rest⟩
    · exact ⟨front, hfront, (List.append_nil _).symm⟩
    · cases hstart
    · obtain ⟨m, hm, hrest⟩ := Reading.read_cons_eq_some.mp hread
      have hparen := h.not_isParen c List.mem_cons_self
      have hdice' := Rule.find?_eq_none_of_append [.mark c] hdice
      rcases Reading.step_eq_some_iff.mp hm with ⟨hc, -⟩ | ⟨rfl, rfl⟩ | ⟨rfl, -⟩ | ⟨rfl, -⟩ | ⟨hop, -, rfl⟩
      · exact absurd hc (h.proper _ List.mem_cons_self)
      · obtain ⟨d, rest, rfl⟩ := h.tail.exists_numeral hdice' hrest rfl hs'
        exact absurd hdice (find?_dice_ne_none [] d rest)
      · cases hparen
      · cases hparen
      · obtain ⟨d, rest, rfl⟩ := h.tail.exists_numeral hdice' hrest rfl hs'
        obtain ⟨op, rfl⟩ := exists_mark_of_isOperator hop
        have hsplit' : Reading.read ⟨false, s.depth⟩ (d.text ++ join rest) = some s' := hrest
        obtain ⟨m, -, hlast⟩ := Reading.read_append_eq_some.mp hsplit'
        have hlt : rest.length < n := by simp only [List.length_cons] at hn; omega
        have hfront' : (front.snoc op ⟨0, d⟩).Plain := ⟨hfront, rfl⟩
        obtain ⟨c, hc, hrow⟩ := ih _ hlt h.tail.tail (Rule.find?_eq_none_of_append [d.lexeme] hdice') hlast
          h.tail.startsNumeral_tail hfront' rfl
        exact ⟨c, hc, by simp [hrow, Chain.row, Signed.row, minuses]⟩

/-- **A well-shaped row without parentheses and dice is a chain.** -/
theorem Bare.exists_chain {row : List Lexeme} (h : Bare row) (hdice : Rule.dice.find? row = none)
    (hshape : WellShaped (join row)) : ∃ c : Chain Signed, c.Plain ∧ c.row Signed.row = row := by
  have hread := wellShaped_iff_read.mp hshape
  obtain ⟨d, rest, rfl⟩ := h.exists_numeral hdice hread rfl rfl
  have hsplit : Reading.read {} (d.text ++ join rest) = some ⟨true, 0⟩ := hread
  obtain ⟨m, -, hrest⟩ := Reading.read_append_eq_some.mp hsplit
  have hfirst : (Chain.single ⟨0, d⟩).Plain := rfl
  have hnone : Rule.dice.find? rest = none := Rule.find?_eq_none_of_append [d.lexeme] hdice
  exact h.tail.exists_chain_append hnone hrest rfl h.startsNumeral_tail hfirst

section

variable {σ : Type} [Roller σ]

/-- Rolling dice may fail, but it finds nothing malformed. -/
theorem fails_roll (dice : Dice) : (Play.roll dice : Play σ UInt64).Fails Excused := by
  rintro tray _ hfault t rfl
  rw [Play.run_roll] at hfault
  simp only [Tray.roll] at hfault
  split at hfault
  · cases hfault
  · split at hfault
    · cases hfault
    · cases hfault

theorem fails_throwDice (count : Option Digits) (sides : Digits) :
    (throwDice count sides : Play σ UInt64).Fails Excused := by
  refine (Play.fails_ofExcept fun fault h => excused_of_diceOf h).bind (Play.yields_true _) fun dice _ => ?_
  exact fails_roll dice

/-! ## The faults of well-shaped texts -/

/-- A pass that rolls dice leaves a bare row. -/
theorem Bare.rewrite {rule : Rule} {row : List Lexeme} {m : Match} (h : Bare row) (hfind : rule.find? row = some m)
    (n : Nat) : Bare (m.rewrite n) where
  proper := proper_of_mem_rewrite hfind h.proper n
  separated := separated_rewrite hfind h.separated n
  not_isParen c hc := by
    have hparen := h.not_isParen c
    rw [Rule.row_eq_of_find? hfind] at hparen
    simp only [Match.rewrite, List.mem_append] at hc hparen
    rcases hc with (hc | hc) | hc
    · exact hparen (Or.inl (Or.inl hc))
    · cases List.mem_singleton.mp hc
    · exact hparen (Or.inr hc)

/-- **A well-shaped row without parentheses is malformed only at dice without sides and at a negative difference.** -/
theorem fails_reduceRow {row : List Lexeme} (h : Bare row) (hshape : WellShaped (join row)) :
    (reduceRow row : Play σ UInt64).Fails Excused := by
  induction hn : live row using Nat.strongRecOn generalizing row with
  | ind n ih =>
    show (reduceRow row : Play σ UInt64).mute.Fails Excused
    cases hdice : Rule.dice.find? row with
    | none =>
      obtain ⟨c, hplain, rfl⟩ := h.exists_chain hdice hshape
      rw [mute_reduceRow_reckon hplain]
      exact fails_reckon hplain
    | some m =>
      have hredex := rowRedex?_of_find? hdice fun r hr => absurd hr (Nat.not_lt_zero _)
      rcases Rule.cases_of_find? hdice h.proper with ⟨-, count, sides, he⟩ | ⟨op, l, r, hop, -⟩
      · rw [mute_reduceRow_of_redex hredex, Match.text, he, join_diceRow, mute_valueOf_diceText, bind_assoc]
        refine (fails_throwDice count sides).bind (Play.yields_true _) fun total _ => ?_
        rw [pure_bind]
        have hlt : live (m.rewrite total.toNat) < n := hn ▸ live_rewrite_lt hdice _
        exact ih _ hlt (h.rewrite hdice _) (wellShaped_rewrite hdice h.proper hshape _) rfl
      · cases hop

/-- A well-shaped text without parentheses is malformed only at dice without sides and at a negative difference. -/
theorem fails_reduce {t : Text} (hparen : ∀ c ∈ t, Group.isParen c = false) (hshape : WellShaped t) :
    (reduce t : Play σ UInt64).Fails Excused := by
  rw [reduce_eq_reduceRow]
  refine fails_reduceRow (bare_lexemes hparen) ?_
  rwa [join_lexemes]

/-- **A well-shaped text is malformed only at dice without sides and at a negative difference.** -/
theorem fails_total {t : Text} (hshape : WellShaped t) :
    (resolveGroups t >>= Resolution.total : Play σ UInt64).Fails Excused := by
  induction t using group_induction with
  | loose t hloose =>
    rw [total_of_loose hloose]
    exact fails_reduce (hshape.not_isParen hloose) hshape
  | group t g hfind ih =>
    have hinside := Group.wellShaped_inside hfind hshape
    have hreduce : (reduce g.inside : Play σ UInt64).Fails Excused :=
      fails_reduce (Group.not_paren_of_find? hfind) hinside
    rw [total_of_group hfind]
    refine hreduce.bind (Play.yields_true _) fun value _ => ?_
    refine (Play.fails_tell _).bind (Play.yields_true _) fun _ _ => ?_
    exact ih value ((Group.wellShaped_replace_iff hfind hinside value).mpr hshape)

/-- **The evaluation accepts the well-shaped texts**: no other text has a total, and a well-shaped one is malformed only
at dice without sides and at a negative difference. -/
theorem evaluate_accepts (t : Text) (tray : Tray σ) :
    (∀ total, ((evaluate t).run tray).result = .ok total → WellShaped (unquote t)) ∧
      (WellShaped (unquote t) → ∀ buffer, ((evaluate t).run tray).result = .error (.malformed buffer) →
        IsZeroSided buffer ∨ IsNegative buffer) := by
  have hmute : ((evaluate t).run tray).result = ((evaluate t).mute.run tray).result := rfl
  rw [hmute, mute_evaluate]
  constructor
  · intro total htotal
    exact yields_total (unquote t) tray.reset total htotal
  · intro hshape buffer hbuffer
    exact fails_total hshape tray.reset _ hbuffer buffer rfl

end

end TabletopDice
