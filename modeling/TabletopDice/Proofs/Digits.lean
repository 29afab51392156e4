import TabletopDice.Proofs.Occurrence
import TabletopDice.Proofs.Play
import TabletopDice.Substitution

/-!
# The values of redexes

The numerals in a redex are runs of digits (`Digits`), of any length and with any number of zeros in front. What a rule
computes from the text of a redex is said here without that text:

- `Digits.read` is the number of a numeral, if it fits in 64 bits (`readOperand_text`);
- `combine` computes an operator at two numerals (`valueOf_operatorText`);
- `diceOf` names the dice of a count and a number of sides (`readDice_diceText`), and `throwDice` rolls them
  (`mute_valueOf_diceText`).
-/

namespace TabletopDice

/-- A numeral: at least one digit, and digits only. -/
structure Digits where
  text : Text
  ne_nil : text ≠ []
  isDigit : ∀ c ∈ text, c.isDigit

/-- The part after the first mark is what follows a text without marks. -/
theorem Text.cut?_append {mark : Char} {left : Text} (h : mark ∉ left) (right : Text) :
    Text.cut? mark (left ++ mark :: right) = some (left, right) := by
  induction left with
  | nil => simp [Text.cut?]
  | cons c left ih =>
    have hc : c ≠ mark := fun hc => h (by simp [hc])
    have hleft : mark ∉ left := fun hm => h (List.mem_cons_of_mem _ hm)
    simp [Text.cut?, hc, ih hleft]

namespace Digits

/-- The value of a numeral. -/
def value (d : Digits) : Nat := Nat.ofDigitChars 10 d.text 0

/-- The numeral of a number, without zeros in front. -/
def ofNat (n : Nat) : Digits :=
  ⟨Numeral.write n, Numeral.write_ne_nil n, fun _ hc => Numeral.isDigit_of_mem_write hc⟩

@[simp] theorem value_ofNat (n : Nat) : (ofNat n).value = n := Nat.ofDigitChars_ten_toDigits

/-- A numeral as a lexeme. -/
def lexeme (d : Digits) : Lexeme := .numeral d.text

theorem proper_lexeme (d : Digits) : d.lexeme.Proper := ⟨d.ne_nil, d.isDigit⟩

/-- The number of a numeral, if it fits in 64 bits. -/
def read (d : Digits) : Except Fault UInt64 :=
  match fit? d.value with
  | some n => .ok n
  | none => .error .overflow

theorem not_mem {d : Digits} {c : Char} (hc : c.isDigit = false) : c ∉ d.text := by
  intro hmem
  rw [d.isDigit c hmem] at hc
  cases hc

theorem text_ne_plus (d : Digits) (rest : Text) : d.text ≠ '+' :: rest := by
  intro h
  have hplus := d.isDigit '+' (by rw [h]; exact List.mem_cons_self)
  exact absurd hplus (by decide)

/-- Digits are read from the first one on. -/
theorem read_eq_readFrom (d : Digits) : Numeral.read d.text = Numeral.readFrom 0 d.text := by
  unfold Numeral.read
  split
  · rename_i heq; exact absurd heq d.ne_nil
  · rename_i heq; exact absurd heq (d.text_ne_plus _)
  · rfl

/-- A numeral is read as its value if that fits, and is too large otherwise. -/
theorem numeral_read (d : Digits) :
    Numeral.read d.text =
      match fit? d.value with
      | some n => .ok n
      | none => .error .tooLarge := by
  rw [read_eq_readFrom, Numeral.readFrom_of_digits d.isDigit (by decide), fit?]
  unfold value
  split <;> rfl

/-- A numeral that is read as an operand is too large or has its value. -/
@[simp] theorem readOperand_text (d : Digits) : Operator.readOperand d.text = d.read := by
  rw [Operator.readOperand, numeral_read, read]
  cases fit? d.value <;> rfl

/-- Operands are read like any numeral that fits. -/
theorem read_eq_ok_iff {d : Digits} {n : UInt64} : d.read = .ok n ↔ Numeral.read d.text = .ok n := by
  rw [numeral_read, read]
  cases fit? d.value <;> simp

theorem toNat_of_read {d : Digits} {n : UInt64} (h : d.read = .ok n) : n.toNat = d.value := by
  rw [read] at h
  cases hfit : fit? d.value with
  | none => rw [hfit] at h; cases h
  | some m =>
    rw [hfit] at h
    obtain rfl := Except.ok.inj h
    exact fit?_eq_some_iff.mp hfit

/-- A 64-bit number is read back. -/
theorem read_ofNat (n : UInt64) : (ofNat n.toNat).read = .ok n := by
  rw [read, value_ofNat, fit?_eq_some_iff.mpr rfl]

/-- The only fault of a numeral is that it is too large. -/
theorem read_eq_error {d : Digits} {fault : Fault} (h : d.read = .error fault) : fault = .overflow := by
  rw [read] at h
  cases hfit : fit? d.value with
  | none => rw [hfit] at h; exact (Except.error.inj h).symm
  | some n => rw [hfit] at h; cases h

/-- Only numerals that are too large cannot be read. -/
theorem size_le_of_read {d : Digits} {fault : Fault} (h : d.read = .error fault) :
    fault = .overflow ∧ UInt64.size ≤ d.value := by
  refine ⟨read_eq_error h, ?_⟩
  rw [read] at h
  cases hfit : fit? d.value with
  | none => exact fit?_eq_none_iff.mp hfit
  | some n => rw [hfit] at h; cases h

end Digits

/-! ## Operators -/

/-- An operator between two numerals. -/
def operatorText (op : Operator) (l r : Digits) : Text := l.text ++ op.mark :: r.text

/-- The value of an operator at two numerals: both are read, the left one first. -/
def combine (op : Operator) (l r : Digits) : Except Fault Int := do
  let a ← l.read
  let b ← r.read
  op.apply a b

theorem isDigit_mark (op : Operator) : op.mark.isDigit = false := by
  cases op <;> decide

theorem Rule.isDigit_mark (rule : Rule) : rule.mark.isDigit = false := by
  rcases rule with _ | op
  · rfl
  · exact TabletopDice.isDigit_mark op

theorem operands_operatorText (op : Operator) (l r : Digits) :
    op.operands (operatorText op l r) = (do let a ← l.read; let b ← r.read; return (a, b)) := by
  rw [Operator.operands, operatorText, Text.cut?_append (Digits.not_mem (isDigit_mark op))]
  simp

/-- **An operator between two numerals has their combined value.** -/
theorem valueOf_operatorText (op : Operator) (l r : Digits) : op.valueOf (operatorText op l r) = combine op l r := by
  rw [Operator.valueOf, operands_operatorText, combine]
  cases l.read with
  | error fault => rfl
  | ok a =>
    cases r.read with
    | error fault => rfl
    | ok b => rfl

/-- Operands are combined once both are read. -/
theorem combine_eq_ok {op : Operator} {l r : Digits} {value : Int} (h : combine op l r = .ok value) :
    ∃ a b, l.read = .ok a ∧ r.read = .ok b ∧ op.apply a b = .ok value := by
  unfold combine at h
  cases hl : l.read with
  | error fault => rw [hl] at h; cases h
  | ok a =>
    cases hr : r.read with
    | error fault => rw [hl, hr] at h; cases h
    | ok b => rw [hl, hr] at h; exact ⟨a, b, rfl, rfl, h⟩

/-- The faults of an operator are numbers that are too large and divisions by zero. -/
theorem combine_eq_error {op : Operator} {l r : Digits} {fault : Fault} (h : combine op l r = .error fault) :
    fault = .overflow ∨ fault = .divisionByZero := by
  have hchecked : ∀ n : Nat, checked n = .error fault → fault = .overflow := by
    intro n hn
    unfold checked at hn
    split at hn
    · cases hn
    · exact (Except.error.inj hn).symm
  unfold combine at h
  cases hl : l.read with
  | error _ => rw [hl] at h; obtain rfl := Except.error.inj h; exact Or.inl (Digits.read_eq_error hl)
  | ok a =>
    cases hr : r.read with
    | error _ => rw [hl, hr] at h; obtain rfl := Except.error.inj h; exact Or.inl (Digits.read_eq_error hr)
    | ok b =>
      rw [hl, hr] at h
      have happly : op.apply a b = .error fault := h
      cases op with
      | multiply => exact Or.inl (hchecked _ happly)
      | divide =>
        rw [Operator.apply] at happly
        split at happly
        · exact Or.inr (Except.error.inj happly).symm
        · cases happly
      | add => exact Or.inl (hchecked _ happly)
      | subtract => cases happly

theorem checked_eq_ok {n : Nat} {value : Int} (h : checked n = .ok value) : value = n := by
  unfold checked at h
  split at h
  · exact (Except.ok.inj h).symm
  · cases h

/-- Only differences can be negative. -/
theorem apply_nonneg {op : Operator} (hop : op ≠ .subtract) {a b : UInt64} {value : Int}
    (h : op.apply a b = .ok value) : 0 ≤ value := by
  cases op with
  | multiply => rw [checked_eq_ok h]; exact Int.natCast_nonneg _
  | divide =>
    rw [Operator.apply] at h
    split at h
    · cases h
    · rw [← Except.ok.inj h]; exact Int.natCast_nonneg _
  | add => rw [checked_eq_ok h]; exact Int.natCast_nonneg _
  | subtract => exact absurd rfl hop

/-! ## Dice -/

/-- Dice with a count, or without one. -/
def diceText : Option Digits → Digits → Text
  | none, sides => 'd' :: sides.text
  | some count, sides => count.text ++ 'd' :: sides.text

/-- The count of dice: one die if it is missing or zero. -/
def countOf : Option Digits → Except Fault UInt64
  | none => .ok 1
  | some d => do
    let count ← d.read
    return if count = 0 then 1 else count

/-- The dice of a count and a number of sides; the count is read first. -/
def diceOf (count : Option Digits) (sides : Digits) : Except Fault Dice := do
  let n ← countOf count
  let s ← sides.read
  match Die.ofSides? s with
  | none => .error (.malformed (diceText count sides))
  | some die => .ok ⟨n, die⟩

/-- The text of dice is cut at its `d`. -/
theorem cut?_diceText (count : Option Digits) (sides : Digits) :
    Text.cut? 'd' (diceText count sides) = some (count.elim [] Digits.text, sides.text) := by
  cases count with
  | none => simp [diceText, Text.cut?]
  | some d => exact Text.cut?_append (Digits.not_mem (by decide)) sides.text

/-- One die stands for no dice. -/
theorem toNat_ite_zero (n : UInt64) : (if n = 0 then 1 else n).toNat = max 1 n.toNat := by
  by_cases hn : n = 0
  · rw [if_pos hn, hn]
    rfl
  · have hne : n.toNat ≠ 0 := fun h => hn (UInt64.toNat_inj.mp h)
    rw [if_neg hn]
    omega

theorem readCount_elim (count : Option Digits) :
    Dice.readCount (count.elim [] Digits.text) =
      match countOf count with
      | .ok n => .ok n
      | .error _ => .error (.invalidCount .tooLarge) := by
  cases count with
  | none => rfl
  | some d =>
    rw [Option.elim_some, Dice.readCount, if_neg d.ne_nil, Digits.numeral_read, countOf, Digits.read]
    cases fit? d.value <;> rfl

theorem readDie_text (d : Digits) :
    Dice.readDie d.text =
      match d.read with
      | .error _ => .error (.invalidSides .tooLarge)
      | .ok s =>
        match Die.ofSides? s with
        | none => .error .noSides
        | some die => .ok die := by
  rw [Dice.readDie, Digits.numeral_read, Digits.read]
  cases fit? d.value <;> rfl

/-- The only fault of a count is that it is too large. -/
theorem countOf_eq_error {count : Option Digits} {fault : Fault} (h : countOf count = .error fault) :
    fault = .overflow := by
  cases count with
  | none => cases h
  | some d =>
    rw [countOf] at h
    cases hread : d.read with
    | error fault' =>
      rw [hread] at h
      obtain rfl := Except.error.inj h
      exact Digits.read_eq_error hread
    | ok n => rw [hread] at h; cases h

/-- Numerals that can be read name dice, unless there are no sides. -/
theorem diceOf_of_read {count : Option Digits} {sides : Digits} {n s : UInt64} (hcount : countOf count = .ok n)
    (hsides : sides.read = .ok s) : diceOf count sides =
      if h : 0 < s.toNat then .ok ⟨n, s, h⟩ else .error (.malformed (diceText count sides)) := by
  rw [diceOf, hcount, hsides]
  simp only [bind, Except.bind, Die.ofSides?]
  by_cases hs : 0 < s.toNat
  · simp only [dif_pos hs]
  · simp only [dif_neg hs]

/-- Dice have the sides of their second numeral. -/
theorem diceOf_eq_ok {count : Option Digits} {sides : Digits} {dice : Dice} (h : diceOf count sides = .ok dice) :
    countOf count = .ok dice.count ∧ dice.die.sides.toNat = sides.value := by
  cases hcount : countOf count with
  | error fault => rw [diceOf, hcount] at h; cases h
  | ok n =>
    cases hsides : sides.read with
    | error fault => rw [diceOf, hcount, hsides] at h; cases h
    | ok s =>
      rw [diceOf_of_read hcount hsides] at h
      split at h
      · obtain rfl := Except.ok.inj h
        exact ⟨rfl, Digits.toNat_of_read hsides⟩
      · cases h

/-- Dice have a number that is too large, or no sides. -/
theorem diceOf_eq_error {count : Option Digits} {sides : Digits} {fault : Fault}
    (h : diceOf count sides = .error fault) :
    fault = .overflow ∨ (fault = .malformed (diceText count sides) ∧ sides.value = 0) := by
  cases hcount : countOf count with
  | error fault' =>
    rw [diceOf, hcount] at h
    obtain rfl := Except.error.inj h
    exact Or.inl (countOf_eq_error hcount)
  | ok n =>
    cases hsides : sides.read with
    | error fault' =>
      rw [diceOf, hcount, hsides] at h
      obtain rfl := Except.error.inj h
      exact Or.inl (Digits.read_eq_error hsides)
    | ok s =>
      rw [diceOf_of_read hcount hsides] at h
      split at h
      · cases h
      · have hvalue := Digits.toNat_of_read hsides
        exact Or.inr ⟨(Except.error.inj h).symm, by omega⟩

/-- **The text of dice names the dice of its numerals.** -/
theorem readDice_diceText (count : Option Digits) (sides : Digits) :
    readDice (diceText count sides) = diceOf count sides := by
  have hread : Dice.read (diceText count sides) = (do
      let n ← Dice.readCount (count.elim [] Digits.text)
      let die ← Dice.readDie sides.text
      return ⟨n, die⟩) := by
    rw [Dice.read, cut?_diceText]
  rw [readDice, hread, readCount_elim, readDie_text, diceOf]
  cases hcount : countOf count with
  | error fault => rw [countOf_eq_error hcount]; rfl
  | ok n =>
    cases hsides : sides.read with
    | error fault => rw [Digits.read_eq_error hsides]; rfl
    | ok s =>
      simp only [bind, Except.bind]
      cases Die.ofSides? s <;> rfl

section

variable {σ : Type} [Roller σ]

/-- Rolls the dice of a count and a number of sides. -/
def throwDice (count : Option Digits) (sides : Digits) : Play σ UInt64 := do
  let dice ← Play.ofExcept (diceOf count sides)
  Play.roll dice

/-- **The value of the text of dice is what they show**, events apart. -/
theorem mute_valueOf_diceText (count : Option Digits) (sides : Digits) :
    (Rule.dice.valueOf (diceText count sides) : Play σ Int).mute =
      throwDice count sides >>= fun total => pure (total.toNat : Int) := by
  rw [Rule.valueOf, readDice_diceText, throwDice]
  simp only [Play.mute_bind, Play.mute_ofExcept, Play.mute_roll, Play.mute_tell, Play.mute_pure, bind_assoc, pure_bind]

end

/-! ## Redexes by their numerals -/

/-- The lexemes of an operator between two numerals. -/
def operatorRow (op : Operator) (l r : Digits) : List Lexeme := [l.lexeme, .mark op.mark, r.lexeme]

/-- The lexemes of dice. -/
def diceRow : Option Digits → Digits → List Lexeme
  | none, sides => [.mark 'd', sides.lexeme]
  | some count, sides => [count.lexeme, .mark 'd', sides.lexeme]

theorem redex_operatorRow (op : Operator) (l r : Digits) : Rule.Redex (.binary op) (operatorRow op l r) :=
  .binary op l.text r.text

theorem redex_diceRow (count : Option Digits) (sides : Digits) : Rule.Redex .dice (diceRow count sides) := by
  cases count with
  | none => exact .die sides.text
  | some count => exact .dice count.text sides.text

@[simp] theorem join_operatorRow (op : Operator) (l r : Digits) : join (operatorRow op l r) = operatorText op l r := by
  simp [operatorRow, operatorText, Digits.lexeme, Lexeme.text]

@[simp] theorem join_diceRow (count : Option Digits) (sides : Digits) :
    join (diceRow count sides) = diceText count sides := by
  cases count <;> simp [diceRow, diceText, Digits.lexeme, Lexeme.text]

/-- **A redex of proper lexemes is dice, or an operator between two numerals.** -/
theorem Rule.Redex.cases_digits {rule : Rule} {matched : List Lexeme} (h : Rule.Redex rule matched)
    (hproper : ∀ x ∈ matched, x.Proper) :
    (rule = .dice ∧ ∃ count sides, matched = diceRow count sides) ∨
      ∃ op l r, rule = .binary op ∧ matched = operatorRow op l r := by
  cases h with
  | die sides =>
    have hs : (Lexeme.numeral sides).Proper := hproper _ (by simp)
    exact Or.inl ⟨rfl, none, ⟨sides, hs.1, hs.2⟩, rfl⟩
  | dice count sides =>
    have hc : (Lexeme.numeral count).Proper := hproper _ (by simp)
    have hs : (Lexeme.numeral sides).Proper := hproper _ (by simp)
    exact Or.inl ⟨rfl, some ⟨count, hc.1, hc.2⟩, ⟨sides, hs.1, hs.2⟩, rfl⟩
  | binary op left right =>
    have hl : (Lexeme.numeral left).Proper := hproper _ (by simp)
    have hr : (Lexeme.numeral right).Proper := hproper _ (by simp)
    exact Or.inr ⟨op, ⟨left, hl.1, hl.2⟩, ⟨right, hr.1, hr.2⟩, rfl, rfl⟩

/-- So is what a rule finds in a row of proper lexemes. -/
theorem Rule.cases_of_find? {rule : Rule} {row : List Lexeme} {m : Match} (h : rule.find? row = some m)
    (hproper : ∀ x ∈ row, x.Proper) : (rule = .dice ∧ ∃ count sides, m.matched = diceRow count sides) ∨
      ∃ op l r, rule = .binary op ∧ m.matched = operatorRow op l r := by
  apply (Rule.redex_of_find? h).cases_digits
  intro x hx
  apply hproper
  rw [Rule.row_eq_of_find? h]
  simp [hx]

theorem Rule.cases_of_occurrence? {rule : Rule} {t : Text} {m : Match} (h : rule.occurrence? t = some m) :
    (rule = .dice ∧ ∃ count sides, m.matched = diceRow count sides) ∨
      ∃ op l r, rule = .binary op ∧ m.matched = operatorRow op l r :=
  Rule.cases_of_find? h proper_of_mem_lexemes

end TabletopDice
