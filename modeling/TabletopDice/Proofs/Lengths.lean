import TabletopDice.Proofs.Extremes
import TabletopDice.Proofs.Parametric

/-!
# Buffers get shorter

Whatever is put in the place of a redex or a group is shorter than what stood there, counted in bytes.

- A number is written with `k` digits or fewer if it is below `10 ^ k` (`byteSize_write_le_iff`), and a numeral with `k`
  digits stands for such a number (`Digits.value_lt`). So the value of an operator is written shorter than its text
  (`byteSize_combine_lt`), even if it is negative, and so is any number up to the count of dice times their sides
  (`byteSize_total_lt`), even if the count is zero and stands for one;
- `Play.Keeps` follows the rollers that show faces of the die through a play, and says what its values are, and the
  buffers that it tells of or is stuck on. Plays in a row are followed from one to the next (`Play.Keeps.bind`);
- so a pass leaves a shorter buffer (`keeps_onePass`), a reduction comes to a number that is written no longer than its
  buffer (`keeps_reduce`), and a group gives way to a text that is two bytes shorter (`Group.byteSize_replace_le`);
- `evaluationBuffers` lists all buffers of an evaluation. None is longer than the instruction (`evaluate_shortens`).
-/

namespace TabletopDice

/-! ## Lengths of numerals -/

theorem utf8Size_of_isDigit {c : Char} (h : c.isDigit) : c.utf8Size = 1 := by
  have hle : c.val ≤ 57 := by
    simp only [Char.isDigit, Bool.and_eq_true, decide_eq_true_eq] at h
    exact h.2
  exact if_pos (UInt32.le_trans hle (by decide))

/-- A digit is one byte. -/
theorem Text.byteSize_of_isDigit {t : Text} (h : ∀ c ∈ t, c.isDigit) : t.byteSize = t.length := by
  induction t with
  | nil => rfl
  | cons c t ih =>
    rw [byteSize_cons, utf8Size_of_isDigit (h c List.mem_cons_self), ih fun d hd => h d (List.mem_cons_of_mem _ hd),
      List.length_cons, Nat.add_comm]

/-- **A number takes `k` bytes or fewer if it is below `10 ^ k`.** -/
theorem byteSize_write_le_iff {n k : Nat} (hk : 0 < k) : (Numeral.write n).byteSize ≤ k ↔ n < 10 ^ k := by
  rw [Text.byteSize_of_isDigit fun _ hc => Numeral.isDigit_of_mem_write hc, Numeral.write]
  exact Nat.length_toDigits_le_iff (by decide) hk

theorem value_lt_of_isDigit {t : Text} (h : ∀ c ∈ t, c.isDigit) : Nat.ofDigitChars 10 t 0 < 10 ^ t.length := by
  induction t with
  | nil => exact Nat.one_pos
  | cons c t ih =>
    have hrest := ih fun d hd => h d (List.mem_cons_of_mem _ hd)
    have hdigit : c.toNat - '0'.toNat ≤ 9 := by
      have hc := h c List.mem_cons_self
      simp only [Char.isDigit, Bool.and_eq_true, decide_eq_true_eq] at hc
      have hle : c.toNat ≤ 57 := UInt32.le_iff_toNat_le.mp hc.2
      have hzero : ('0' : Char).toNat = 48 := rfl
      omega
    rw [Nat.ofDigitChars_cons, Nat.ofDigitChars_eq_ofDigitChars_zero, List.length_cons, Nat.pow_succ]
    have hscaled := Nat.mul_le_mul_left (10 ^ t.length) hdigit
    simp only [Nat.mul_zero, Nat.zero_add]
    omega

namespace Digits

theorem byteSize_pos (d : Digits) : 0 < d.text.byteSize := by
  rw [Text.byteSize_of_isDigit d.isDigit]
  exact List.length_pos_iff.mpr d.ne_nil

/-- A numeral stands for a number below the power of ten with its length, zeros in front or not. -/
theorem value_lt (d : Digits) : d.value < 10 ^ d.text.byteSize := by
  rw [Text.byteSize_of_isDigit d.isDigit]
  exact value_lt_of_isDigit d.isDigit

end Digits

/-! ## Lengths of values -/

theorem writeInt_natCast (n : Nat) : Numeral.writeInt n = Numeral.write n := rfl

theorem byteSize_operatorText (op : Operator) (l r : Digits) :
    (operatorText op l r).byteSize = l.text.byteSize + 1 + r.text.byteSize := by
  have hmark : op.mark.utf8Size = 1 := by cases op <;> rfl
  rw [operatorText, Text.byteSize_append, Text.byteSize_cons, hmark, Nat.add_assoc]

section

variable {a b i j : Nat} (hi : 0 < i) (hj : 0 < j) (ha : a < 10 ^ i) (hb : b < 10 ^ j)

include ha hb

theorem mul_lt_pow : a * b < 10 ^ (i + j) := by
  rw [Nat.pow_add]
  exact Nat.mul_lt_mul'' ha hb

include hi hj

/-- A sum takes no more digits than both numbers together, since each of them has one. -/
theorem add_lt_pow : a + b < 10 ^ (i + j) := by
  have hten : ∀ k, 0 < k → 2 ≤ 10 ^ k := fun k hk =>
    Nat.le_trans (by decide : 2 ≤ 10 ^ 1) (Nat.pow_le_pow_right (by decide) hk)
  rw [Nat.pow_add]
  exact Nat.lt_of_lt_of_le (Nat.add_lt_add ha hb) (Nat.add_le_mul (hten i hi) (hten j hj))

/-- A difference has no more digits than the larger number, and its sign takes no more room than the other one. -/
theorem byteSize_sub_lt : (Numeral.writeInt ((a : Int) - b)).byteSize < i + 1 + j := by
  rcases Nat.lt_or_ge a b with hlt | hge
  · have hvalue : (a : Int) - b = Int.negSucc (b - a - 1) := by omega
    have hdigits : (Numeral.write (b - a - 1 + 1)).byteSize ≤ j := (byteSize_write_le_iff hj).mpr (by omega)
    have hsign : ('-' : Char).utf8Size = 1 := rfl
    rw [hvalue, Numeral.writeInt, Text.byteSize_cons, hsign]
    omega
  · have hvalue : (a : Int) - b = ((a - b : Nat) : Int) := by omega
    have hdigits : (Numeral.write (a - b)).byteSize ≤ i := (byteSize_write_le_iff hi).mpr (by omega)
    rw [hvalue, writeInt_natCast]
    omega

end

/-- **The value of an operator is written shorter than its text.** -/
theorem byteSize_combine_lt {op : Operator} {l r : Digits} {value : Int} (h : combine op l r = .ok value) :
    (Numeral.writeInt value).byteSize < (operatorText op l r).byteSize := by
  obtain ⟨a, b, hl, hr, happly⟩ := combine_eq_ok h
  have ha : a.toNat < 10 ^ l.text.byteSize := by rw [Digits.toNat_of_read hl]; exact l.value_lt
  have hb : b.toNat < 10 ^ r.text.byteSize := by rw [Digits.toNat_of_read hr]; exact r.value_lt
  have hlpos := l.byteSize_pos
  have hrpos := r.byteSize_pos
  -- without the mark, both numerals leave room for a number of so many digits
  have hboth : ∀ n : Nat, n < 10 ^ (l.text.byteSize + r.text.byteSize) →
      (Numeral.writeInt n).byteSize < l.text.byteSize + 1 + r.text.byteSize := by
    intro n hn
    have hdigits := (byteSize_write_le_iff (by omega)).mpr hn
    rw [writeInt_natCast]
    omega
  rw [byteSize_operatorText]
  cases op with
  | multiply =>
    rw [checked_eq_ok happly]
    exact hboth _ (mul_lt_pow ha hb)
  | divide =>
    rw [Operator.apply] at happly
    split at happly
    · cases happly
    · rw [← Except.ok.inj happly]
      have hquotient := Nat.lt_of_le_of_lt (Nat.div_le_self a.toNat b.toNat) ha
      exact hboth _ (Nat.lt_of_lt_of_le hquotient (Nat.pow_le_pow_right (by decide) (Nat.le_add_right _ _)))
  | add =>
    rw [checked_eq_ok happly]
    exact hboth _ (add_lt_pow hlpos hrpos ha hb)
  | subtract =>
    rw [← Except.ok.inj happly]
    exact byteSize_sub_lt hlpos hrpos ha hb

/-- A count of zero stands for one die, which takes no more digits. -/
theorem toNat_lt_of_countOf {d : Digits} {n : UInt64} (h : countOf (some d) = .ok n) :
    n.toNat < 10 ^ d.text.byteSize := by
  cases hread : d.read with
  | error fault => rw [countOf, hread] at h; cases h
  | ok m =>
    rw [countOf, hread] at h
    obtain rfl := Except.ok.inj h
    have hvalue := Digits.toNat_of_read hread
    have hlt := d.value_lt
    have hone := Nat.one_lt_pow (Nat.pos_iff_ne_zero.mp d.byteSize_pos) (by decide : 1 < 10)
    split
    · exact hone
    · omega

/-- **A total of dice is written shorter than their text.** -/
theorem byteSize_total_lt {count : Option Digits} {sides : Digits} {dice : Dice}
    (h : diceOf count sides = .ok dice) {total : Nat} (htotal : total ≤ dice.count.toNat * dice.die.sides.toNat) :
    (Numeral.write total).byteSize < (diceText count sides).byteSize := by
  obtain ⟨hcount, hsides⟩ := diceOf_eq_ok h
  have hspos := sides.byteSize_pos
  have hslt := sides.value_lt
  have hmark : ('d' : Char).utf8Size = 1 := rfl
  rw [hsides] at htotal
  cases count with
  | none =>
    have hone : dice.count.toNat = 1 := by rw [← Except.ok.inj hcount]; rfl
    rw [hone, Nat.one_mul] at htotal
    have hdigits := (byteSize_write_le_iff hspos).mpr (Nat.lt_of_le_of_lt htotal hslt)
    rw [diceText, Text.byteSize_cons, hmark]
    omega
  | some d =>
    have hproduct := Nat.lt_of_le_of_lt htotal (mul_lt_pow (toNat_lt_of_countOf hcount) hslt)
    have hdigits := (byteSize_write_le_iff (by omega)).mpr hproduct
    rw [diceText, Text.byteSize_append, Text.byteSize_cons, hmark]
    omega

/-! ## Plays from good trays -/

section

variable {σ α β : Type} {good : σ → Prop}

/-- The roller is left in a good state, and a value has a property. So has each buffer that a rule has left, and a
buffer that cannot be reduced. -/
structure Outcome.Keeps (good : σ → Prop) (value : α → Prop) (buffer : Text → Prop) (outcome : Outcome σ α) :
    Prop where
  good : good outcome.tray.roller
  value : ∀ a, outcome.result = .ok a → value a
  told : ∀ t, .reduced t ∈ outcome.events → buffer t
  stuck : ∀ t, outcome.result = .error (.malformed t) → buffer t

/-- All outcomes on trays with a roller in a good state keep to it. -/
def Play.Keeps (good : σ → Prop) (value : α → Prop) (buffer : Text → Prop) (play : Play σ α) : Prop :=
  ∀ tray : Tray σ, good tray.roller → (play.run tray).Keeps good value buffer

namespace Play

variable {value value' : α → Prop} {buffer buffer' : Text → Prop}

theorem Keeps.mono {play : Play σ α} (h : play.Keeps good value buffer) (hvalue : ∀ a, value a → value' a)
    (hbuffer : ∀ t, buffer t → buffer' t) : play.Keeps good value' buffer' := by
  intro tray hgood
  have hplay := h tray hgood
  constructor
  · exact hplay.good
  · exact fun a ha => hvalue a (hplay.value a ha)
  · exact fun t ht => hbuffer t (hplay.told t ht)
  · exact fun t ht => hbuffer t (hplay.stuck t ht)

theorem keeps_ofExcept {result : Except Fault α} (hvalue : ∀ a, result = .ok a → value a)
    (hstuck : ∀ t, result = .error (.malformed t) → buffer t) :
    (ofExcept result : Play σ α).Keeps good value buffer :=
  fun _ hgood => ⟨hgood, hvalue, fun _ ht => (by cases ht), hstuck⟩

theorem keeps_pure {a : α} (h : value a) : (pure a : Play σ α).Keeps good value buffer := by
  rw [← ofExcept_ok]
  refine keeps_ofExcept ?_ fun _ hb => by cases hb
  rintro _ ⟨rfl⟩
  exact h

theorem keeps_fail {fault : Fault} (h : ∀ t, fault = .malformed t → buffer t) :
    (fail fault : Play σ α).Keeps good value buffer := by
  show (ofExcept (.error fault) : Play σ α).Keeps good value buffer
  exact keeps_ofExcept (fun _ ha => by cases ha) fun t ht => h t (Except.error.inj ht)

theorem keeps_tell {event : Event} (h : ∀ t, event = .reduced t → buffer t) :
    (tell event : Play σ Unit).Keeps good (fun _ => True) buffer := by
  intro tray hgood
  refine ⟨hgood, fun _ _ => trivial, fun t ht => ?_, fun _ ht => by cases ht⟩
  exact h t (List.mem_singleton.mp ht).symm

theorem keeps_booked : (booked : Play σ UInt64).Keeps good (fun _ => True) buffer :=
  fun _ hgood => ⟨hgood, fun _ _ => trivial, fun _ ht => (by cases ht), fun _ ht => by cases ht⟩

theorem keeps_reset : (reset : Play σ Unit).Keeps good (fun _ => True) buffer :=
  fun _ hgood => ⟨hgood, fun _ _ => trivial, fun _ ht => (by cases ht), fun _ ht => by cases ht⟩

/-- **Plays in a row keep to good states** if each of them does from the values of the one before. -/
theorem Keeps.bind {play : Play σ α} {next : α → Play σ β} {last : β → Prop} (h : play.Keeps good value buffer)
    (hnext : ∀ a, value a → (next a).Keeps good last buffer) : (play >>= next).Keeps good last buffer := by
  intro tray hgood
  rw [run_bind]
  have hplay := h tray hgood
  rcases hrun : play.run tray with ⟨fault | a, tray', events⟩
  · rw [hrun] at hplay
    refine ⟨hplay.good, fun _ hresult => ?_, hplay.told, fun t hresult => ?_⟩
    · cases hresult
    · cases hresult
      exact hplay.stuck t rfl
  · rw [hrun] at hplay
    obtain ⟨hgood', hvalue, htold, hstuck⟩ := hnext a (hplay.value a rfl) tray' hplay.good
    refine ⟨hgood', hvalue, fun t ht => ?_, hstuck⟩
    rcases List.mem_append.mp ht with ht | ht
    · exact hplay.told t ht
    · exact htold t ht

/-- A roll comes to a total up to the number of the dice times their sides, and is stuck on no buffer. -/
theorem keeps_roll [Roller σ] (hshows : Roller.Shows good (fun _ => 1) fun die => die.sides.toNat) (dice : Dice) :
    (roll dice : Play σ UInt64).Keeps good (fun total => total.toNat ≤ dice.count.toNat * dice.die.sides.toNat)
      buffer := by
  intro tray hgood
  rw [run_roll]
  cases hbook : tray.book dice.count with
  | none =>
    rw [Tray.roll_of_no_book hbook]
    exact ⟨hgood, fun _ hresult => (by cases hresult), fun _ ht => (by cases ht), fun _ hresult => by cases hresult⟩
  | some booked =>
    obtain ⟨total, -, hmost, hresult, -, -, hgood'⟩ := hshows.roll_of_book hgood hbook
    refine ⟨hgood', fun value hvalue => ?_, fun _ ht => (by cases ht), fun t ht => ?_⟩
    · rw [elim_fit?_eq_ok (hresult ▸ hvalue)]
      exact hmost
    · have hfault : (tray.roll dice).1 = .error (.malformed t) := ht
      rw [hresult] at hfault
      cases hfit : fit? total <;> rw [hfit] at hfault <;> cases hfault

end Play

/-! ## Passes and reductions -/

section

variable [Roller σ] (hshows : Roller.Shows good (fun _ => 1) fun die => die.sides.toNat)

include hshows

/-- The value of a redex is written shorter than the redex. -/
theorem keeps_valueOf {rule : Rule} {t : Text} {m : Match} (h : rule.occurrence? t = some m) :
    (rule.valueOf m.text : Play σ Int).Keeps good
      (fun value => (Numeral.writeInt value).byteSize < m.text.byteSize)
      fun buffer => buffer.byteSize ≤ m.text.byteSize := by
  rcases Rule.cases_of_occurrence? h with ⟨rfl, count, sides, hm⟩ | ⟨op, l, r, rfl, hm⟩
  · rw [Match.text, hm, join_diceRow, Rule.valueOf, readDice_diceText]
    have hread : (Play.ofExcept (diceOf count sides) : Play σ Dice).Keeps good
        (fun dice => diceOf count sides = .ok dice)
        fun buffer => buffer.byteSize ≤ (diceText count sides).byteSize := by
      refine Play.keeps_ofExcept (fun _ hdice => hdice) fun buffer hfault => ?_
      rcases diceOf_eq_error hfault with hfault | ⟨hfault, -⟩
      · cases hfault
      · rw [Fault.malformed.inj hfault]
    refine hread.bind fun dice hdice => (Play.keeps_roll hshows dice).bind fun total htotal => ?_
    refine (Play.keeps_tell fun _ h => by cases h).bind fun _ _ => ?_
    exact Play.keeps_pure (byteSize_total_lt hdice htotal)
  · rw [Match.text, hm, join_operatorRow, Rule.valueOf, valueOf_operatorText]
    refine Play.keeps_ofExcept (fun value hvalue => byteSize_combine_lt hvalue) fun buffer hfault => ?_
    rcases combine_eq_error hfault with hfault | hfault <;> cases hfault

/-- **A redex is replaced by a shorter text.** -/
theorem keeps_contract {rule : Rule} {t : Text} {m : Match} (h : rule.occurrence? t = some m) :
    (contract rule m : Play σ Int).Keeps good (fun value => (m.replace value).byteSize < t.byteSize)
      fun buffer => buffer.byteSize ≤ t.byteSize := by
  have ht := congrArg Text.byteSize (Rule.text_eq_of_occurrence? h)
  simp only [Text.byteSize_append] at ht
  have hvalue : (rule.valueOf m.text : Play σ Int).Keeps good
      (fun value => (m.replace value).byteSize < t.byteSize) fun buffer => buffer.byteSize ≤ t.byteSize := by
    refine (keeps_valueOf hshows h).mono (fun value hlt => ?_) fun buffer hle => by omega
    simp only [Match.replace, Text.byteSize_append]
    omega
  refine hvalue.bind fun value hlt => ?_
  refine (Play.keeps_tell fun _ h => by cases h).bind fun _ _ => ?_
  refine Play.Keeps.bind (Play.keeps_tell fun buffer h => ?_) fun _ _ => Play.keeps_pure hlt
  obtain rfl := Event.reduced.inj h
  exact Nat.le_of_lt hlt

/-- **A pass that replaces something leaves a shorter buffer.** -/
theorem keeps_onePass (t : Text) : (onePass t : Play σ Pass).Keeps good
    (fun pass => ∀ rule next, pass = .replaced rule next → next.byteSize < t.byteSize)
    fun buffer => buffer.byteSize ≤ t.byteSize := by
  unfold onePass
  split
  · exact Play.keeps_pure fun _ _ h => by cases h
  · split
    · exact Play.keeps_pure fun _ _ h => by cases h
    · rename_i rule m hredex
      refine (keeps_contract hshows (occurrence_of_redex? hredex)).bind fun value hlt => Play.keeps_pure ?_
      rintro _ _ ⟨rfl, rfl⟩
      exact hlt

/-- So the number that a buffer is reduced to is written no longer than the buffer, by induction along the passes. -/
theorem keeps_reduce (t : Text) : (reduce t : Play σ UInt64).Keeps good
    (fun value => (Numeral.write value.toNat).byteSize ≤ t.byteSize) fun buffer => buffer.byteSize ≤ t.byteSize := by
  induction t using buffer_induction with
  | normal t hredex =>
    rw [reduce_of_no_redex hredex]
    split
    · rename_i hnumeral
      obtain ⟨ds, hrow⟩ := exists_of_isNumeralRow hnumeral
      have hproper : (Lexeme.numeral ds).Proper := proper_of_mem_lexemes _ (by rw [hrow]; simp)
      have ht : t = ds := by
        rw [← join_lexemes t, hrow]
        simp [Lexeme.text]
      let d : Digits := ⟨ds, hproper.1, hproper.2⟩
      have hread : readTotal t = d.read := by rw [ht]; exact d.readOperand_text
      rw [hread, ht]
      refine Play.keeps_ofExcept (fun value hvalue => ?_) fun buffer hfault => ?_
      · rw [Digits.toNat_of_read hvalue]
        exact (byteSize_write_le_iff d.byteSize_pos).mpr d.value_lt
      · cases Digits.read_eq_error hfault
    · refine Play.keeps_fail fun buffer hfault => ?_
      rw [Fault.malformed.inj hfault]
  | redex t rule m hredex ih =>
    rw [reduce_of_redex hredex]
    refine (keeps_contract hshows (occurrence_of_redex? hredex)).bind fun value hlt => ?_
    exact (ih value).mono (fun _ hle => by omega) fun _ hle => by omega

/-- No pass of a reduction leaves a longer buffer. -/
theorem byteSize_le_of_mem_passes {t : Text} {tray : Tray σ} (hgood : good tray.roller) :
    ∀ step ∈ passes t tray, step.1.byteSize ≤ t.byteSize := by
  fun_induction passes t tray with
  | case1 t tray rule next tray' events hrun ih =>
    have hpass := keeps_onePass hshows t tray hgood
    rw [hrun] at hpass
    have hlt := hpass.value _ rfl rule next rfl
    intro step hstep
    rcases List.mem_cons.mp hstep with rfl | hstep
    · exact Nat.le_of_lt hlt
    · have hle := ih hpass.good step hstep
      omega
  | case2 t tray _ =>
    intro step hstep
    rw [List.mem_singleton.mp hstep]

end

/-! ## Groups -/

theorem Group.byteSize_inside_le {t : Text} {g : Group} (h : Group.find? t = some g) :
    g.inside.byteSize ≤ t.byteSize := by
  rw [eq_of_find? h]
  simp only [text, Text.byteSize_append, Text.byteSize_cons]
  omega

/-- **A number that is written no longer than the inside of a group is shorter by the parentheses.** -/
theorem Group.byteSize_replace_le {t : Text} {g : Group} (h : Group.find? t = some g) {value : UInt64}
    (hvalue : (Numeral.write value.toNat).byteSize ≤ g.inside.byteSize) :
    (Numeral.write value.toNat).byteSize + 2 ≤ g.text.byteSize ∧ (g.replace value).byteSize + 2 ≤ t.byteSize := by
  have hopen : ('(' : Char).utf8Size = 1 := rfl
  have hclose : (')' : Char).utf8Size = 1 := rfl
  have ht := congrArg Text.byteSize (eq_of_find? h)
  simp only [text, replace, Text.byteSize_append, Text.byteSize_cons, Text.byteSize_nil, hopen, hclose] at ht ⊢
  omega

theorem byteSize_unquote_le (t : Text) : (unquote t).byteSize ≤ t.byteSize := by
  induction t with
  | nil => exact Nat.le_refl _
  | cons c t ih =>
    rw [unquote] at ih ⊢
    rw [List.filter_cons]
    split
    · rw [Text.byteSize_cons, Text.byteSize_cons]
      exact Nat.add_le_add_left ih _
    · exact Nat.le_trans ih (Nat.le_add_left _ _)

section

variable [Roller σ]

/-- The buffers of a reduction: the first one, and those that its passes leave. -/
def reductionBuffers (t : Text) (tray : Tray σ) : List Text := t :: (passes t tray).map Prod.fst

/-- The buffers of a resolution: each one that a group is looked for in, and behind it those of the reduction of the
group. -/
def resolutionBuffers (t : Text) (tray : Tray σ) : List Text :=
  match _ : Group.find? t with
  | none => [t]
  | some g =>
    let outcome := (reduce g.inside).run tray
    t :: reductionBuffers g.inside tray ++
      match outcome.result with
      | .error _ => []
      | .ok value => resolutionBuffers (g.replace value) outcome.tray
termination_by t.count '('
decreasing_by exact Group.count_replace_lt ‹_› value

/-- The buffers of an evaluation: those of the resolution of its groups, and of the reduction of what is left. -/
def evaluationBuffers (t : Text) (tray : Tray σ) : List Text :=
  let outcome := (resolveGroups (unquote t) >>= Resolution.finished).run tray.reset
  resolutionBuffers (unquote t) tray.reset ++
    match outcome.result with
    | .error _ => []
    | .ok buffer => reductionBuffers buffer outcome.tray

theorem resolutionBuffers_of_loose {t : Text} (h : Loose t) (tray : Tray σ) : resolutionBuffers t tray = [t] := by
  rw [resolutionBuffers]
  split
  · rfl
  · rename_i hfind
    rw [Group.find?_eq_none_iff.mpr h] at hfind
    cases hfind

theorem resolutionBuffers_of_group {t : Text} {g : Group} (h : Group.find? t = some g) (tray : Tray σ) :
    resolutionBuffers t tray = t :: (reductionBuffers g.inside tray ++
      match ((reduce g.inside).run tray).result with
      | .error _ => []
      | .ok value => resolutionBuffers (g.replace value) ((reduce g.inside).run tray).tray) := by
  rw [resolutionBuffers]
  split
  · rename_i hnone
    rw [h] at hnone
    cases hnone
  · rename_i hsome
    rw [h] at hsome
    obtain rfl := Option.some.inj hsome
    rfl

variable (hshows : Roller.Shows good (fun _ => 1) fun die => die.sides.toNat)

include hshows

theorem byteSize_le_of_mem_reductionBuffers {t : Text} {tray : Tray σ} (hgood : good tray.roller) :
    ∀ buffer ∈ reductionBuffers t tray, buffer.byteSize ≤ t.byteSize := by
  intro buffer hbuffer
  rcases List.mem_cons.mp hbuffer with rfl | hbuffer
  · exact Nat.le_refl _
  · obtain ⟨step, hstep, rfl⟩ := List.mem_map.mp hbuffer
    exact byteSize_le_of_mem_passes hshows hgood step hstep

theorem byteSize_le_of_mem_resolutionBuffers {t : Text} {tray : Tray σ} (hgood : good tray.roller) :
    ∀ buffer ∈ resolutionBuffers t tray, buffer.byteSize ≤ t.byteSize := by
  induction t using group_induction generalizing tray with
  | loose t hloose =>
    intro buffer hbuffer
    rw [resolutionBuffers_of_loose hloose] at hbuffer
    rw [List.mem_singleton.mp hbuffer]
  | group t g hfind ih =>
    have hinside := keeps_reduce hshows g.inside tray hgood
    have hle := Group.byteSize_inside_le hfind
    intro buffer hbuffer
    rw [resolutionBuffers_of_group hfind] at hbuffer
    rcases List.mem_cons.mp hbuffer with rfl | hbuffer
    · exact Nat.le_refl _
    · rcases List.mem_append.mp hbuffer with hbuffer | hbuffer
      · exact Nat.le_trans (byteSize_le_of_mem_reductionBuffers hshows hgood buffer hbuffer) hle
      · cases hresult : ((reduce g.inside).run tray).result with
        | error fault => rw [hresult] at hbuffer; cases hbuffer
        | ok value =>
          rw [hresult] at hbuffer
          have hshorter := Group.byteSize_replace_le hfind (hinside.value value hresult)
          have hrest := ih value hinside.good buffer hbuffer
          omega

/-- The resolution of groups finishes with a buffer that is no longer, by induction along the groups. -/
theorem keeps_finished (t : Text) : (resolveGroups t >>= Resolution.finished : Play σ Text).Keeps good
    (fun buffer => buffer.byteSize ≤ t.byteSize) fun buffer => buffer.byteSize ≤ t.byteSize := by
  induction t using group_induction with
  | loose t hloose =>
    rw [finished_of_loose hloose]
    exact Play.keeps_pure (Nat.le_refl _)
  | group t g hfind ih =>
    have hle := Group.byteSize_inside_le hfind
    rw [finished_of_group hfind]
    have hinside : (reduce g.inside : Play σ UInt64).Keeps good
        (fun value => (Numeral.write value.toNat).byteSize ≤ g.inside.byteSize)
        fun buffer => buffer.byteSize ≤ t.byteSize :=
      (keeps_reduce hshows g.inside).mono (fun _ h => h) fun _ h => Nat.le_trans h hle
    refine hinside.bind fun value hvalue => (Play.keeps_tell fun _ h => by cases h).bind fun _ _ => ?_
    have hshorter := Group.byteSize_replace_le hfind hvalue
    exact (ih value).mono (fun _ h => by omega) fun _ h => by omega

/-- **The buffers that an evaluation tells of, and those that it is stuck on, are no longer than the instruction.** -/
theorem keeps_evaluate (t : Text) : (evaluate t : Play σ UInt64).Keeps good (fun _ => True)
    fun buffer => buffer.byteSize ≤ t.byteSize := by
  have hunquote := byteSize_unquote_le t
  have htotal : (resolveGroups (unquote t) >>= Resolution.finished >>= reduce : Play σ UInt64).Keeps good
      (fun _ => True) fun buffer => buffer.byteSize ≤ (unquote t).byteSize := by
    refine (keeps_finished hshows (unquote t)).bind fun buffer hbuffer => ?_
    exact (keeps_reduce hshows buffer).mono (fun _ _ => trivial) fun _ h => Nat.le_trans h hbuffer
  rw [evaluate_eq_reset_bind]
  refine Play.keeps_reset.bind fun _ _ => (htotal.mono (fun _ h => h) fun _ h => Nat.le_trans h hunquote).bind ?_
  intro total _
  exact Play.keeps_booked.bind fun rolls _ =>
    (Play.keeps_tell fun _ h => by cases h).bind fun _ _ => Play.keeps_pure trivial

theorem byteSize_le_of_mem_evaluationBuffers {t : Text} {tray : Tray σ} (hgood : good tray.roller) :
    ∀ buffer ∈ evaluationBuffers t tray, buffer.byteSize ≤ t.byteSize := by
  have hunquote := byteSize_unquote_le t
  have hreset : good tray.reset.roller := hgood
  have hfinished := keeps_finished hshows (unquote t) tray.reset hreset
  intro buffer hbuffer
  rcases List.mem_append.mp hbuffer with hbuffer | hbuffer
  · exact Nat.le_trans (byteSize_le_of_mem_resolutionBuffers hshows hreset buffer hbuffer) hunquote
  · cases hresult : ((resolveGroups (unquote t) >>= Resolution.finished).run tray.reset).result with
    | error fault => rw [hresult] at hbuffer; cases hbuffer
    | ok left =>
      rw [hresult] at hbuffer
      have hleft := hfinished.value left hresult
      have hle := byteSize_le_of_mem_reductionBuffers hshows hfinished.good buffer hbuffer
      omega

/-- **Every step makes the buffer shorter**, if the roller shows faces of the die. A pass that replaces something leaves
fewer bytes, a group gives way to a text that is two bytes shorter, and of all buffers of an evaluation, those that it
tells of and those that it is stuck on included, none is longer than the instruction. -/
theorem evaluate_shortens :
    (∀ (t : Text) (tray : Tray σ), good tray.roller → ∀ rule next,
      ((onePass t).run tray).result = .ok (.replaced rule next) → next.byteSize < t.byteSize) ∧
    (∀ (t : Text) (g : Group) (tray : Tray σ), good tray.roller → Group.find? t = some g → ∀ value,
      ((reduce g.inside).run tray).result = .ok value →
        (Numeral.write value.toNat).byteSize + 2 ≤ g.text.byteSize ∧
          (g.replace value).byteSize + 2 ≤ t.byteSize) ∧
    ∀ (t : Text) (tray : Tray σ), good tray.roller →
      (∀ buffer ∈ evaluationBuffers t tray, buffer.byteSize ≤ t.byteSize) ∧
      (∀ buffer, .reduced buffer ∈ ((evaluate t).run tray).events → buffer.byteSize ≤ t.byteSize) ∧
      ∀ buffer, ((evaluate t).run tray).result = .error (.malformed buffer) → buffer.byteSize ≤ t.byteSize := by
  refine ⟨fun t tray hgood rule next hpass => ?_, fun t g tray hgood hfind value hvalue => ?_, fun t tray hgood => ?_⟩
  · exact (keeps_onePass hshows t tray hgood).value _ hpass rule next rfl
  · exact Group.byteSize_replace_le hfind ((keeps_reduce hshows g.inside tray hgood).value value hvalue)
  · have hkeeps := keeps_evaluate hshows t tray hgood
    exact ⟨byteSize_le_of_mem_evaluationBuffers hshows hgood, hkeeps.told, hkeeps.stuck⟩

end

/-- A difference is written shorter than `003-12`, its sign included, and so are all buffers of `(2d6)-"x"`. -/
theorem evaluate_shortens_cycle :
    let tray : Tray Cycle := ⟨⟨[6, 5], 0⟩, 0, none⟩
    Roller.Shows (σ := Cycle) (fun _ => True) (fun _ => 1) (fun die => die.sides.toNat) ∧
    ((onePass "003-12".toList).run tray).result = .ok (.replaced (.binary .subtract) "-9".toList) ∧
    Text.byteSize "-9".toList < Text.byteSize "003-12".toList ∧
    ∀ buffer ∈ evaluationBuffers "(2d6)-\"x\"".toList tray, buffer.byteSize ≤ 9 := by
  intro tray
  have hpass : ((onePass "003-12".toList).run tray).result = .ok (.replaced (.binary .subtract) "-9".toList) := by
    rfl
  obtain ⟨hshorter, -, hbuffers⟩ := evaluate_shortens shows_cycle
  exact ⟨shows_cycle, hpass, hshorter _ tray trivial _ _ hpass, (hbuffers _ tray trivial).1⟩

end

end TabletopDice
