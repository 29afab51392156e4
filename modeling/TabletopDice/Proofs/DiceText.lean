import TabletopDice.Proofs.Digits

/-!
# Texts that name dice

`Dice.read` takes exactly the texts of a grammar, and reads what `Dice.write` writes.

- `Spells` says that a text is the numeral of a number, with one `+` in front of its digits or none, and zeros in front
  as it likes. A text spells one number at most (`Spells.unique`), and is read as a number exactly if it spells that
  (`Numeral.read_eq_ok_iff`);
- `NamesCount` says how many dice the text in front of a `d` stands for, and sides are spelled behind it. A text that
  names neither is a fault of the count or of the sides (`Dice.readCount_cases`, `Dice.readDie_cases`);
- a text is cut at its first `d`, and its count is read before its sides (`Dice.read_append`).

The main statement is `dice_text_exact`.
-/

namespace TabletopDice

/-! ## Numerals -/

/-- The text is the numeral of a number: one digit or more, behind one `+` or none. -/
def Spells (t : Text) (n : Nat) : Prop := ∃ d : Digits, (t = d.text ∨ t = '+' :: d.text) ∧ d.value = n

theorem spells_write (n : Nat) : Spells (Numeral.write n) n := ⟨.ofNat n, Or.inl rfl, Digits.value_ofNat n⟩

theorem not_spells_nil (n : Nat) : ¬ Spells [] n := by
  rintro ⟨d, h | h, -⟩
  · exact d.ne_nil h.symm
  · cases h

/-- **A text spells one number at most.** -/
theorem Spells.unique {t : Text} {m n : Nat} (hm : Spells t m) (hn : Spells t n) : m = n := by
  obtain ⟨d, ht, rfl⟩ := hm
  obtain ⟨d', ht', rfl⟩ := hn
  have hvalue : ∀ {e e' : Digits}, e.text = e'.text → e.value = e'.value := fun h =>
    congrArg (Nat.ofDigitChars 10 · 0) h
  rcases ht with rfl | rfl <;> rcases ht' with h | h
  · exact hvalue h
  · exact absurd h (d.text_ne_plus _)
  · exact absurd h.symm (d'.text_ne_plus _)
  · exact hvalue (List.cons.inj h).2

namespace Numeral

/-- Only digits are read on. -/
theorem isDigit_of_readFrom {ds : Text} {value : Nat} {n : UInt64} (h : readFrom value ds = .ok n) :
    ∀ c ∈ ds, c.isDigit := by
  induction ds generalizing value with
  | nil => simp
  | cons c rest ih =>
    rw [readFrom] at h
    split at h
    · rename_i hc
      simp only at h
      split at h
      · exact List.forall_mem_cons.mpr ⟨hc, ih h⟩
      · cases h
    · cases h

/-- What is read from the start is the value of digits. -/
theorem exists_digits_of_readFrom {ds : Text} {n : UInt64} (hne : ds ≠ []) (h : readFrom 0 ds = .ok n) :
    ∃ d : Digits, ds = d.text ∧ d.value = n.toNat := by
  have hds := isDigit_of_readFrom h
  refine ⟨⟨ds, hne, hds⟩, rfl, ?_⟩
  rw [readFrom_of_digits hds (by decide)] at h
  split at h
  · rename_i hlt
    obtain rfl := Except.ok.inj h
    exact (UInt64.toNat_ofNat_of_lt' hlt).symm
  · cases h

/-- A `+` in front of digits changes nothing. -/
theorem read_plus (d : Digits) : read ('+' :: d.text) = read d.text := by
  obtain ⟨c, rest, hd⟩ := List.exists_cons_of_ne_nil d.ne_nil
  rw [d.read_eq_readFrom, hd]
  rfl

/-- **A text is read as a number exactly if it spells that.** -/
theorem read_eq_ok_iff {t : Text} {n : UInt64} : read t = .ok n ↔ Spells t n.toNat := by
  constructor
  · intro h
    unfold read at h
    split at h
    · cases h
    · obtain ⟨d, ht, hvalue⟩ := exists_digits_of_readFrom (List.cons_ne_nil _ _) h
      exact ⟨d, Or.inr (by rw [ht]), hvalue⟩
    · rename_i hne _
      obtain ⟨d, ht, hvalue⟩ := exists_digits_of_readFrom hne h
      exact ⟨d, Or.inl ht, hvalue⟩
  · rintro ⟨d, rfl | rfl, hvalue⟩
    · rw [d.numeral_read, fit?_eq_some_iff.mpr hvalue.symm]
    · rw [read_plus, d.numeral_read, fit?_eq_some_iff.mpr hvalue.symm]

/-- A text that is not read spells no number, or one that is too large. -/
theorem not_spells_of_error {t : Text} {reason : Fault} (h : read t = .error reason) {v : Nat}
    (hlt : v < UInt64.size) : ¬ Spells t v := by
  intro hv
  have hread : read t = .ok (.ofNat v) := read_eq_ok_iff.mpr (by rwa [UInt64.toNat_ofNat_of_lt' hlt])
  rw [h] at hread
  cases hread

end Numeral

/-! ## Counts and sides -/

/-- The text in front of a `d` stands for so many dice: one if it is missing or spells zero, and as many as it spells
otherwise. -/
def NamesCount (t : Text) (n : Nat) : Prop := t = [] ∧ n = 1 ∨ ∃ v < UInt64.size, Spells t v ∧ n = max 1 v

theorem NamesCount.one_le {t : Text} {n : Nat} (h : NamesCount t n) : 1 ≤ n := by
  rcases h with ⟨-, rfl⟩ | ⟨v, -, -, rfl⟩ <;> omega

theorem NamesCount.lt_size {t : Text} {n : Nat} (h : NamesCount t n) : n < UInt64.size := by
  have hone : 1 < UInt64.size := by decide
  rcases h with ⟨-, rfl⟩ | ⟨v, hlt, -, rfl⟩ <;> omega

theorem exists_namesCount_iff {t : Text} : (∃ n, NamesCount t n) ↔ t = [] ∨ ∃ v < UInt64.size, Spells t v := by
  constructor
  · rintro ⟨n, ⟨rfl, -⟩ | ⟨v, hlt, hv, -⟩⟩
    · exact Or.inl rfl
    · exact Or.inr ⟨v, hlt, hv⟩
  · rintro (rfl | ⟨v, hlt, hv⟩)
    · exact ⟨1, Or.inl ⟨rfl, rfl⟩⟩
    · exact ⟨max 1 v, Or.inr ⟨v, hlt, hv, rfl⟩⟩

namespace Dice

/-- **A count is read as what it names**, or it names nothing. -/
theorem readCount_cases (t : Text) : (∃ n, readCount t = .ok n ∧ ∀ m, NamesCount t m ↔ m = n.toNat) ∨
    ∃ reason, readCount t = .error (.invalidCount reason) ∧ ∀ m, ¬ NamesCount t m := by
  unfold readCount NamesCount
  by_cases hnil : t = []
  · subst hnil
    refine Or.inl ⟨1, if_pos rfl, fun m => ?_⟩
    simp [not_spells_nil]
  · simp only [hnil, if_false, false_and, false_or]
    cases hread : Numeral.read t with
    | error reason =>
      exact Or.inr ⟨reason, rfl, fun m ⟨v, hlt, hv, _⟩ => Numeral.not_spells_of_error hread hlt hv⟩
    | ok n =>
      have hspells := Numeral.read_eq_ok_iff.mp hread
      refine Or.inl ⟨_, rfl, fun m => ?_⟩
      rw [toNat_ite_zero]
      constructor
      · rintro ⟨v, -, hv, rfl⟩
        rw [hv.unique hspells]
      · rintro rfl
        exact ⟨n.toNat, n.toNat_lt, hspells, rfl⟩

/-- **Sides are read as what is spelled**, unless that is zero, or too large, or nothing. -/
theorem readDie_cases (t : Text) : (∃ die, readDie t = .ok die ∧ Spells t die.sides.toNat) ∨
    (readDie t = .error .noSides ∧ Spells t 0) ∨
      ∃ reason, readDie t = .error (.invalidSides reason) ∧ ∀ v < UInt64.size, ¬ Spells t v := by
  unfold readDie
  cases hread : Numeral.read t with
  | error reason =>
    exact Or.inr (Or.inr ⟨reason, rfl, fun v hlt => Numeral.not_spells_of_error hread hlt⟩)
  | ok n =>
    have hspells := Numeral.read_eq_ok_iff.mp hread
    simp only [Die.ofSides?]
    by_cases hpos : 0 < n.toNat
    · exact Or.inl ⟨⟨n, hpos⟩, by rw [dif_pos hpos], hspells⟩
    · have hzero : n.toNat = 0 := by omega
      exact Or.inr (Or.inl ⟨by rw [dif_neg hpos], hzero ▸ hspells⟩)

/-! ## Dice -/

/-- A text is cut at its first `d`, and its count is read before its sides. -/
theorem read_append {a : Text} (h : 'd' ∉ a) (b : Text) : Dice.read (a ++ 'd' :: b) = do
    let count ← readCount a
    let die ← readDie b
    return ⟨count, die⟩ := by
  rw [Dice.read, Text.cut?_append h]

/-- What is read of a text with `a` in front of its first `d` and `b` behind that. -/
structure Parses (a b : Text) (result : Except Fault Dice) : Prop where
  marked : result ≠ .error .noMark
  named : ∀ dice, result = .ok dice ↔ NamesCount a dice.count.toNat ∧ Spells b dice.die.sides.toNat
  invalidCount : (∃ reason, result = .error (.invalidCount reason)) ↔ ¬ ∃ n, NamesCount a n
  invalidSides : (∃ reason, result = .error (.invalidSides reason)) ↔
    (∃ n, NamesCount a n) ∧ ¬ ∃ v < UInt64.size, Spells b v
  noSides : result = .error .noSides ↔ (∃ n, NamesCount a n) ∧ Spells b 0

namespace Parses

variable {a b : Text}

theorem of_invalidCount (h : ∀ n, ¬ NamesCount a n) (reason : Numeral.Fault) :
    Parses a b (.error (.invalidCount reason)) where
  marked h := by cases h
  named _ := iff_of_false (fun h => by cases h) fun h' => h _ h'.1
  invalidCount := iff_of_true ⟨reason, rfl⟩ fun ⟨n, hn⟩ => h n hn
  invalidSides := iff_of_false (fun ⟨_, h⟩ => by cases h) fun h' => h _ h'.1.choose_spec
  noSides := iff_of_false (fun h => by cases h) fun h' => h _ h'.1.choose_spec

theorem of_invalidSides {n : Nat} (hcount : NamesCount a n) (h : ∀ v < UInt64.size, ¬ Spells b v)
    (reason : Numeral.Fault) : Parses a b (.error (.invalidSides reason)) where
  marked h := by cases h
  named dice := iff_of_false (fun h => by cases h) fun h' => h _ dice.die.sides.toNat_lt h'.2
  invalidCount := iff_of_false (fun ⟨_, h⟩ => by cases h) (not_not_intro ⟨n, hcount⟩)
  invalidSides := iff_of_true ⟨reason, rfl⟩ ⟨⟨n, hcount⟩, fun ⟨v, hlt, hv⟩ => h v hlt hv⟩
  noSides := iff_of_false (fun h => by cases h) fun h' => h 0 (by decide) h'.2

theorem of_noSides {n : Nat} (hcount : NamesCount a n) (h : Spells b 0) : Parses a b (.error .noSides) where
  marked h := by cases h
  named dice := by
    refine iff_of_false (fun h => by cases h) fun h' => ?_
    have hpos := dice.die.sides_pos
    rw [h'.2.unique h] at hpos
    exact absurd hpos (Nat.lt_irrefl 0)
  invalidCount := iff_of_false (fun ⟨_, h⟩ => by cases h) (not_not_intro ⟨n, hcount⟩)
  invalidSides := iff_of_false (fun ⟨_, h⟩ => by cases h) fun h' => h'.2 ⟨0, by decide, h⟩
  noSides := iff_of_true rfl ⟨⟨n, hcount⟩, h⟩

theorem of_named {dice : Dice} (hcount : ∀ n, NamesCount a n ↔ n = dice.count.toNat)
    (h : Spells b dice.die.sides.toNat) : Parses a b (.ok dice) where
  marked h := by cases h
  named dice' := by
    obtain ⟨count, sides, hpos⟩ := dice
    obtain ⟨count', sides', hpos'⟩ := dice'
    rw [hcount]
    constructor
    · rintro ⟨rfl⟩
      exact ⟨rfl, h⟩
    · rintro ⟨hn, hs⟩
      obtain rfl : count' = count := UInt64.toNat_inj.mp hn
      obtain rfl : sides' = sides := UInt64.toNat_inj.mp (hs.unique h)
      rfl
  invalidCount := iff_of_false (fun ⟨_, h⟩ => by cases h) (not_not_intro ⟨_, (hcount _).mpr rfl⟩)
  invalidSides := iff_of_false (fun ⟨_, h⟩ => by cases h) fun h' => h'.2 ⟨_, dice.die.sides.toNat_lt, h⟩
  noSides := by
    refine iff_of_false (fun h => by cases h) fun h' => ?_
    have hpos := dice.die.sides_pos
    rw [h.unique h'.2] at hpos
    exact absurd hpos (Nat.lt_irrefl 0)

end Parses

/-- **What is read is what the parts of a text name.** -/
theorem parses_read {a : Text} (h : 'd' ∉ a) (b : Text) : Parses a b (Dice.read (a ++ 'd' :: b)) := by
  rw [read_append h]
  rcases readCount_cases a with ⟨n, hn, hcount⟩ | ⟨reason, hreason, hcount⟩
  · rw [hn]
    have hnamed := (hcount _).mpr rfl
    rcases readDie_cases b with ⟨die, hdie, hsides⟩ | ⟨hdie, hzero⟩ | ⟨reason, hdie, hsides⟩
    · rw [hdie]
      exact .of_named hcount hsides
    · rw [hdie]
      exact .of_noSides hnamed hzero
    · rw [hdie]
      exact .of_invalidSides hnamed hsides reason
  · rw [hreason]
    exact .of_invalidCount hcount reason

/-- A text has a first `d`, or none. -/
theorem cases_of_mark (t : Text) : 'd' ∉ t ∨ ∃ a b, t = a ++ 'd' :: b ∧ 'd' ∉ a := by
  cases hcut : t.cut? 'd' with
  | none => exact Or.inl (Text.cut?_eq_none_iff.mp hcut)
  | some parts => exact Or.inr ⟨parts.1, parts.2, Text.eq_of_cut? hcut, Text.not_mem_of_cut? hcut⟩

/-- The mark is missing exactly if there is no `d`. -/
theorem read_eq_noMark_iff {t : Text} : Dice.read t = .error .noMark ↔ 'd' ∉ t := by
  constructor
  · intro h
    rcases cases_of_mark t with hmark | ⟨a, b, rfl, ha⟩
    · exact hmark
    · exact absurd h (parses_read ha b).marked
  · intro h
    rw [Dice.read, Text.cut?_eq_none_iff.mpr h]

/-- Texts name dice if the one in front is a count and the one behind spells sides. -/
theorem exists_named_iff {a b : Text} :
    (∃ dice : Dice, NamesCount a dice.count.toNat ∧ Spells b dice.die.sides.toNat) ↔
      (a = [] ∨ ∃ v < UInt64.size, Spells a v) ∧ ∃ v < UInt64.size, 0 < v ∧ Spells b v := by
  rw [← exists_namesCount_iff]
  constructor
  · rintro ⟨dice, hcount, hsides⟩
    exact ⟨⟨_, hcount⟩, _, dice.die.sides.toNat_lt, dice.die.sides_pos, hsides⟩
  · rintro ⟨⟨n, hcount⟩, v, hlt, hpos, hsides⟩
    have hn := UInt64.toNat_ofNat_of_lt' hcount.lt_size
    have hv := UInt64.toNat_ofNat_of_lt' hlt
    exact ⟨⟨.ofNat n, ⟨.ofNat v, by rwa [hv]⟩⟩, by rwa [hn], by rwa [hv]⟩

theorem toNat_max_one (n : UInt64) : (max 1 n).toNat = max 1 n.toNat := by
  have hone : (1 : UInt64).toNat = 1 := rfl
  show (if 1 ≤ n then n else 1).toNat = _
  split
  · rename_i h
    rw [UInt64.le_iff_toNat_le] at h
    omega
  · rename_i h
    rw [UInt64.le_iff_toNat_le] at h
    omega

/-- **A written text is read as the dice**, or as one die if there are none. -/
theorem read_write (dice : Dice) : Dice.read dice.write = .ok ⟨max 1 dice.count, dice.die⟩ := by
  have hmark : 'd' ∉ Numeral.write dice.count.toNat := fun h =>
    absurd (Numeral.isDigit_of_mem_write h) (by decide)
  have hcount : NamesCount (Numeral.write dice.count.toNat) (max 1 dice.count).toNat :=
    Or.inr ⟨_, dice.count.toNat_lt, spells_write _, toNat_max_one _⟩
  exact ((parses_read hmark _).named _).mpr ⟨hcount, spells_write _⟩

/-- **What has been read is read again once it is written.** -/
theorem read_write_of_read {t : Text} {dice : Dice} (h : Dice.read t = .ok dice) : Dice.read dice.write = .ok dice := by
  have hone : 1 ≤ dice.count.toNat := by
    rcases cases_of_mark t with hmark | ⟨a, b, rfl, ha⟩
    · rw [read_eq_noMark_iff.mpr hmark] at h
      cases h
    · exact (((parses_read ha b).named dice).mp h).1.one_le
  have hmax : max 1 dice.count = dice.count := by
    apply UInt64.toNat_inj.mp
    rw [toNat_max_one]
    omega
  rw [read_write, hmax]

end Dice

/-- **Texts that name dice are exactly those of the grammar**, and what is written is read back, with one die for none.
A text without a `d` lacks its mark. Any other is cut at the first one. It names dice exactly if the part in front is
empty or spells a number below `2 ^ 64`, and the part behind spells one from `1` to `2 ^ 64 - 1`: these are its count, of
which a missing one or zero stands for one die, and its sides. A fault of the count is reported before any fault of the
sides, and no sides are reported exactly if zero is spelled behind a count. What has been read, written and read again
is the same dice. -/
theorem dice_text_exact :
    (∀ dice : Dice, Dice.read dice.write = .ok ⟨max 1 dice.count, dice.die⟩) ∧
    (∀ t, Dice.read t = .error .noMark ↔ 'd' ∉ t) ∧
    (∀ a b, 'd' ∉ a → Dice.Parses a b (Dice.read (a ++ 'd' :: b)) ∧
      ((∃ dice, Dice.read (a ++ 'd' :: b) = .ok dice) ↔
        (a = [] ∨ ∃ v < UInt64.size, Spells a v) ∧ ∃ v < UInt64.size, 0 < v ∧ Spells b v)) ∧
    ∀ t dice, Dice.read t = .ok dice → Dice.read dice.write = .ok dice := by
  refine ⟨Dice.read_write, fun t => Dice.read_eq_noMark_iff, fun a b ha => ?_, fun t dice => Dice.read_write_of_read⟩
  have hparses := Dice.parses_read ha b
  refine ⟨hparses, ?_⟩
  rw [← Dice.exists_named_iff]
  exact exists_congr hparses.named

/-- `+007d020` is seven dice with twenty sides. In `+dx`, it is the count that is reported. -/
theorem dice_text_exact_signed :
    let dice : Dice := ⟨7, ⟨20, by decide⟩⟩
    Dice.read ("+007".toList ++ 'd' :: "020".toList) = .ok dice ∧ NamesCount "+007".toList 7 ∧
      Spells "020".toList 20 ∧ Dice.read dice.write = .ok dice ∧ ¬ ∃ n, NamesCount "+".toList n := by
  intro dice
  obtain ⟨-, -, hread, hagain⟩ := dice_text_exact
  have hdice : Dice.read ("+007".toList ++ 'd' :: "020".toList) = .ok dice := by decide
  obtain ⟨hcount, hsides⟩ := ((hread "+007".toList "020".toList (by decide)).1.named dice).mp hdice
  have hfault : Dice.read ("+".toList ++ 'd' :: "x".toList) = .error (.invalidCount .invalidDigit) := by decide
  have hnone := (hread "+".toList "x".toList (by decide)).1.invalidCount.mp ⟨_, hfault⟩
  exact ⟨hdice, hcount, hsides, hagain _ dice hdice, hnone⟩

end TabletopDice
