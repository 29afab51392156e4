import TabletopDice.Proofs.Bookings
import TabletopDice.Proofs.Failures

/-!
# The faults of a redex

Each fault of a redex has one cause in the numbers that are written in it. Operands and counts are read by functions that
take any text, and have a fault for each that is no numeral; on the text of a redex they find numerals.

- An operator at two numerals computes with their values (`computes_combine`). It overflows if an operand or its result is
  too large, and fails otherwise only if it divides by zero (`Operator.Computes`);
- a count and a number of sides name dice (`Dice.IsNamed`), or are too large, or there are no sides (`diceOf_cases`). Dice
  that are named are refused by the tray or rolled (`Throws`, `throws_valueOf`);
- an evaluation overflows exactly if a number is too large in a buffer that it reaches (`TooLarge`).

The main statement is `redex_faults_exact`.
-/

namespace TabletopDice

/-! ## Operators -/

namespace Operator

/-- The exact result of an operator. -/
def exact : Operator → Nat → Nat → Int
  | multiply, l, r => (l * r : Nat)
  | divide, l, r => (l / r : Nat)
  | add, l, r => (l + r : Nat)
  | subtract, l, r => (l : Int) - r

/-- An operand is too large, or a product or a sum is. -/
def Exceeds (op : Operator) (l r : Nat) : Prop :=
  UInt64.size ≤ l ∨ UInt64.size ≤ r ∨ ((op = multiply ∨ op = add) ∧ (UInt64.size : Int) ≤ op.exact l r)

/-- The result of an operator at two numbers: it overflows if one of them, or a product or a sum, is too large, and it
fails otherwise only if it divides by zero. -/
structure Computes (op : Operator) (l r : Nat) (result : Except Fault Int) : Prop where
  overflow : result = .error .overflow ↔ op.Exceeds l r
  divisionByZero : result = .error .divisionByZero ↔
    op = .divide ∧ l < UInt64.size ∧ r < UInt64.size ∧ r = 0
  others : ∀ fault, result = .error fault → fault = .overflow ∨ fault = .divisionByZero
  value : ∀ value, result = .ok value → value = op.exact l r

/-- Where an operator neither overflows nor divides by zero, it has its exact result. -/
theorem apply_eq_exact {op : Operator} {a b : UInt64} (hfits : ¬ op.Exceeds a.toNat b.toNat)
    (hzero : ¬ (op = .divide ∧ b.toNat = 0)) : op.apply a b = .ok (op.exact a.toNat b.toNat) := by
  unfold Exceeds at hfits
  cases op with
  | multiply =>
    have hlt : a.toNat * b.toNat < UInt64.size := by
      by_contra hge
      apply hfits
      refine Or.inr (Or.inr ⟨Or.inl rfl, ?_⟩)
      show (UInt64.size : Int) ≤ (a.toNat * b.toNat : Nat)
      omega
    exact if_pos hlt
  | divide =>
    have hne : b ≠ 0 := by
      rintro rfl
      exact hzero ⟨rfl, rfl⟩
    exact if_neg hne
  | add =>
    have hlt : a.toNat + b.toNat < UInt64.size := by
      by_contra hge
      apply hfits
      refine Or.inr (Or.inr ⟨Or.inr rfl, ?_⟩)
      show (UInt64.size : Int) ≤ (a.toNat + b.toNat : Nat)
      omega
    exact if_pos hlt
  | subtract => rfl

/-- Numbers that fit overflow only as a product or a sum. -/
theorem apply_eq_overflow {op : Operator} {a b : UInt64} (h : op.Exceeds a.toNat b.toNat) :
    op.apply a b = .error .overflow := by
  have ha : a.toNat < UInt64.size := a.toNat_lt
  have hb : b.toNat < UInt64.size := b.toNat_lt
  rcases h with h | h | ⟨rfl | rfl, h⟩
  · omega
  · omega
  · have hge : (UInt64.size : Int) ≤ (a.toNat * b.toNat : Nat) := h
    exact if_neg (by omega)
  · have hge : (UInt64.size : Int) ≤ (a.toNat + b.toNat : Nat) := h
    exact if_neg (by omega)

theorem Computes.of_exceeds {op : Operator} {l r : Nat} (h : op.Exceeds l r) :
    op.Computes l r (.error .overflow) where
  overflow := iff_of_true rfl h
  divisionByZero := by
    refine iff_of_false (fun hfault => by cases hfault) ?_
    rintro ⟨rfl, hl, hr, -⟩
    rcases h with h | h | ⟨h | h, -⟩
    · omega
    · omega
    · cases h
    · cases h
  others fault hfault := Or.inl (Except.error.inj hfault).symm
  value _ hvalue := by cases hvalue

theorem Computes.of_zero {l r : Nat} (hfits : ¬ divide.Exceeds l r) (hzero : r = 0) :
    divide.Computes l r (.error .divisionByZero) where
  overflow := iff_of_false (fun hfault => by cases hfault) hfits
  divisionByZero := by
    refine iff_of_true rfl ⟨rfl, ?_, ?_, hzero⟩
    · exact Nat.lt_of_not_le fun hl => hfits (Or.inl hl)
    · exact Nat.lt_of_not_le fun hr => hfits (Or.inr (Or.inl hr))
  others fault hfault := Or.inr (Except.error.inj hfault).symm
  value _ hvalue := by cases hvalue

theorem Computes.of_exact {op : Operator} {l r : Nat} (hfits : ¬ op.Exceeds l r) (hzero : ¬ (op = .divide ∧ r = 0)) :
    op.Computes l r (.ok (op.exact l r)) where
  overflow := iff_of_false (fun hfault => by cases hfault) hfits
  divisionByZero := iff_of_false (fun hfault => by cases hfault) fun h => hzero ⟨h.1, h.2.2.2⟩
  others _ hfault := by cases hfault
  value _ hvalue := (Except.ok.inj hvalue).symm

end Operator

/-- **An operator at two numerals computes with their values**, which may be too large. -/
theorem computes_combine (op : Operator) (l r : Digits) : op.Computes l.value r.value (combine op l r) := by
  unfold combine
  cases hl : l.read with
  | error fault =>
    obtain ⟨rfl, hlarge⟩ := l.size_le_of_read hl
    exact .of_exceeds (Or.inl hlarge)
  | ok a =>
    cases hr : r.read with
    | error fault =>
      obtain ⟨rfl, hlarge⟩ := r.size_le_of_read hr
      exact .of_exceeds (Or.inr (Or.inl hlarge))
    | ok b =>
      rw [← Digits.toNat_of_read hl, ← Digits.toNat_of_read hr]
      show op.Computes a.toNat b.toNat (op.apply a b)
      by_cases hlarge : op.Exceeds a.toNat b.toNat
      · rw [Operator.apply_eq_overflow hlarge]
        exact .of_exceeds hlarge
      · by_cases hzero : op = .divide ∧ b.toNat = 0
        · obtain ⟨rfl, hb⟩ := hzero
          obtain rfl : b = 0 := UInt64.toNat_inj.mp hb
          exact .of_zero hlarge rfl
        · rw [Operator.apply_eq_exact hlarge hzero]
          exact .of_exact hlarge hzero

/-! ## Dice -/

/-- The value of a count that may be missing. -/
def countValue (count : Option Digits) : Nat := count.elim 0 Digits.value

/-- The dice of a count and a number of sides: one die if the count is missing or zero. -/
structure Dice.IsNamed (dice : Dice) (count : Option Digits) (sides : Digits) : Prop where
  count : dice.count.toNat = max 1 (countValue count)
  sides : dice.die.sides.toNat = sides.value

namespace Dice.IsNamed

variable {dice : Dice} {count : Option Digits} {sides : Digits}

/-- Numbers of dice fit in 64 bits, and there are sides. -/
theorem bounds (h : dice.IsNamed count sides) :
    countValue count < UInt64.size ∧ sides.value < UInt64.size ∧ 0 < sides.value := by
  have hcount : dice.count.toNat < UInt64.size := dice.count.toNat_lt
  have hsides : dice.die.sides.toNat < UInt64.size := dice.die.sides.toNat_lt
  have hpos := dice.die.sides_pos
  rw [h.count] at hcount
  rw [h.sides] at hsides hpos
  omega

theorem unique {dice' : Dice} (h : dice.IsNamed count sides) (h' : dice'.IsNamed count sides) : dice' = dice := by
  obtain ⟨n, s, hs⟩ := dice
  obtain ⟨n', s', hs'⟩ := dice'
  obtain rfl : n' = n := UInt64.toNat_inj.mp (h'.count.trans h.count.symm)
  obtain rfl : s' = s := UInt64.toNat_inj.mp (h'.sides.trans h.sides.symm)
  rfl

end Dice.IsNamed

/-- A count is too large, or it is the number of dice. -/
theorem countOf_cases (count : Option Digits) : (countOf count = .error .overflow ∧ UInt64.size ≤ countValue count) ∨
    ∃ n, countOf count = .ok n ∧ n.toNat = max 1 (countValue count) := by
  cases count with
  | none => exact Or.inr ⟨1, rfl, rfl⟩
  | some d =>
    rw [countOf]
    cases hread : d.read with
    | error fault =>
      obtain ⟨rfl, hlarge⟩ := d.size_le_of_read hread
      exact Or.inl ⟨rfl, hlarge⟩
    | ok m =>
      have hvalue : m.toNat = countValue (some d) := Digits.toNat_of_read hread
      exact Or.inr ⟨if m = 0 then 1 else m, rfl, by rw [toNat_ite_zero, hvalue]⟩

/-- **A count and a number of sides name dice**, or one of them is too large, or there are no sides. -/
theorem diceOf_cases (count : Option Digits) (sides : Digits) :
    (diceOf count sides = .error .overflow ∧ (UInt64.size ≤ countValue count ∨ UInt64.size ≤ sides.value)) ∨
      (diceOf count sides = .error (.malformed (diceText count sides)) ∧ countValue count < UInt64.size ∧
        sides.value = 0) ∨
      ∃ dice : Dice, diceOf count sides = .ok dice ∧ dice.IsNamed count sides := by
  rcases countOf_cases count with ⟨hcount, hlarge⟩ | ⟨n, hcount, hn⟩
  · refine Or.inl ⟨?_, Or.inl hlarge⟩
    rw [diceOf, hcount]
    rfl
  · have hlt : n.toNat < UInt64.size := n.toNat_lt
    cases hsides : sides.read with
    | error fault =>
      obtain ⟨rfl, hlarge⟩ := sides.size_le_of_read hsides
      refine Or.inl ⟨?_, Or.inr hlarge⟩
      rw [diceOf, hcount, hsides]
      rfl
    | ok s =>
      have hs := Digits.toNat_of_read hsides
      rw [diceOf_of_read hcount hsides]
      by_cases hpos : 0 < s.toNat
      · exact Or.inr (Or.inr ⟨⟨n, s, hpos⟩, dif_pos hpos, hn, hs⟩)
      · exact Or.inr (Or.inl ⟨dif_neg hpos, by omega, by omega⟩)

section

variable {σ : Type} [Roller σ]

/-- A number of dice is too large, or the sum of the faces of dice that the tray admits. -/
def DiceExceed (tray : Tray σ) (count : Option Digits) (sides : Digits) : Prop :=
  UInt64.size ≤ countValue count ∨ UInt64.size ≤ sides.value ∨ ∃ dice : Dice, dice.IsNamed count sides ∧
    tray.booked.toNat + dice.count.toNat ≤ tray.limit ∧ (dice.faces tray.roller).1 = none

/-- The result of the text of dice: it overflows if a number is too large, it is malformed if there are no sides, and
dice that it names are refused if the tray does not admit them. -/
structure Throws (tray : Tray σ) (count : Option Digits) (sides : Digits) (t : Text) (result : Except Fault Int) :
    Prop where
  overflow : result = .error .overflow ↔ DiceExceed tray count sides
  malformed : ∀ b, result = .error (.malformed b) ↔ b = t ∧ countValue count < UInt64.size ∧ sides.value = 0
  tooManyDice : result = .error .tooManyDice ↔
    ∃ dice : Dice, dice.IsNamed count sides ∧ tray.limit < tray.booked.toNat + dice.count.toNat
  others : ∀ fault, result = .error fault → fault = .overflow ∨ fault = .malformed t ∨ fault = .tooManyDice
  value : ∀ value, result = .ok value →
    ∃ (dice : Dice) (total : UInt64), dice.IsNamed count sides ∧ (dice.faces tray.roller).1 = some total ∧
      value = total.toNat

/-- Dice are refused, or come to what the roller shows for them. -/
theorem result_throw (dice : Dice) (tray : Tray σ) : ((Play.throw dice).run tray).result =
    if tray.limit < tray.booked.toNat + dice.count.toNat then .error .tooManyDice
    else (dice.faces tray.roller).1.elim (.error .overflow) fun total => .ok total.toNat := by
  cases hbook : tray.book dice.count with
  | none =>
    rw [run_roll_of_no_book hbook, if_pos (Tray.book_eq_none_iff.mp hbook)]
  | some booked =>
    have hadmits : ¬ tray.limit < tray.booked.toNat + dice.count.toNat := by
      rw [← Tray.book_eq_none_iff, hbook]
      exact Option.some_ne_none _
    rw [run_roll_of_book hbook, if_neg hadmits, (Tray.book_eq_some hbook).1]

namespace Throws

variable {tray : Tray σ} {count : Option Digits} {sides : Digits} {t : Text}

theorem of_large (h : UInt64.size ≤ countValue count ∨ UInt64.size ≤ sides.value) :
    Throws tray count sides t (.error .overflow) where
  overflow := iff_of_true rfl (h.imp_right Or.inl)
  malformed _ := by
    refine iff_of_false (fun hfault => by cases hfault) ?_
    rintro ⟨-, hcount, hsides⟩
    omega
  tooManyDice := by
    refine iff_of_false (fun hfault => by cases hfault) ?_
    rintro ⟨dice, hnamed, -⟩
    have hbounds := hnamed.bounds
    omega
  others _ hfault := Or.inl (Except.error.inj hfault).symm
  value _ hvalue := by cases hvalue

theorem of_no_sides (hcount : countValue count < UInt64.size) (hsides : sides.value = 0) :
    Throws tray count sides t (.error (.malformed t)) where
  overflow := by
    refine iff_of_false (fun hfault => by cases hfault) ?_
    have hsize : 0 < UInt64.size := by decide
    rintro (hlarge | hlarge | ⟨dice, hnamed, -⟩)
    · omega
    · omega
    · have hbounds := hnamed.bounds
      omega
  malformed b := by
    rw [Except.error.injEq, Fault.malformed.injEq]
    exact ⟨fun h => ⟨h.symm, hcount, hsides⟩, fun h => h.1.symm⟩
  tooManyDice := by
    refine iff_of_false (fun hfault => by cases hfault) ?_
    rintro ⟨dice, hnamed, -⟩
    have hbounds := hnamed.bounds
    omega
  others _ hfault := Or.inr (Or.inl (Except.error.inj hfault).symm)
  value _ hvalue := by cases hvalue

theorem of_refused {dice : Dice} (h : dice.IsNamed count sides)
    (hrefused : tray.limit < tray.booked.toNat + dice.count.toNat) :
    Throws tray count sides t (.error .tooManyDice) where
  overflow := by
    have hbounds := h.bounds
    refine iff_of_false (fun hfault => by cases hfault) ?_
    rintro (hlarge | hlarge | ⟨dice', hnamed, hadmits, -⟩)
    · omega
    · omega
    · rw [h.unique hnamed] at hadmits
      omega
  malformed _ := by
    have hbounds := h.bounds
    refine iff_of_false (fun hfault => by cases hfault) ?_
    rintro ⟨-, -, hsides⟩
    omega
  tooManyDice := iff_of_true rfl ⟨dice, h, hrefused⟩
  others _ hfault := Or.inr (Or.inr (Except.error.inj hfault).symm)
  value _ hvalue := by cases hvalue

theorem of_admitted {dice : Dice} (h : dice.IsNamed count sides)
    (hadmits : tray.booked.toNat + dice.count.toNat ≤ tray.limit) :
    Throws tray count sides t
      ((dice.faces tray.roller).1.elim (.error .overflow) fun total => .ok total.toNat) where
  overflow := by
    have hbounds := h.bounds
    constructor
    · intro hfault
      refine Or.inr (Or.inr ⟨dice, h, hadmits, ?_⟩)
      cases hfaces : (dice.faces tray.roller).1 with
      | none => rfl
      | some total => rw [hfaces] at hfault; cases hfault
    · rintro (hlarge | hlarge | ⟨dice', hnamed, -, hnone⟩)
      · omega
      · omega
      · rw [h.unique hnamed] at hnone
        rw [hnone]
        rfl
  malformed _ := by
    have hbounds := h.bounds
    refine iff_of_false (fun hfault => ?_) ?_
    · cases hfaces : (dice.faces tray.roller).1 <;> rw [hfaces] at hfault <;> cases hfault
    · rintro ⟨-, -, hsides⟩
      omega
  tooManyDice := by
    refine iff_of_false (fun hfault => ?_) ?_
    · cases hfaces : (dice.faces tray.roller).1 <;> rw [hfaces] at hfault <;> cases hfault
    · rintro ⟨dice', hnamed, hrefused⟩
      rw [h.unique hnamed] at hrefused
      omega
  others _ hfault := by
    cases hfaces : (dice.faces tray.roller).1 with
    | none => rw [hfaces] at hfault; exact Or.inl (Except.error.inj hfault).symm
    | some total => rw [hfaces] at hfault; cases hfault
  value _ hvalue := by
    cases hfaces : (dice.faces tray.roller).1 with
    | none => rw [hfaces] at hvalue; cases hvalue
    | some total =>
      rw [hfaces] at hvalue
      exact ⟨dice, total, h, hfaces, (Except.ok.inj hvalue).symm⟩

end Throws

/-- The value of a text of dice is what they throw. -/
theorem valueOf_diceText (count : Option Digits) (sides : Digits) :
    (Rule.dice.valueOf (diceText count sides) : Play σ Int) = Play.ofExcept (diceOf count sides) >>= Play.throw := by
  rw [← readDice_diceText]
  rfl

/-- **The text of dice comes to what its numbers say.** -/
theorem throws_valueOf (count : Option Digits) (sides : Digits) (tray : Tray σ) :
    Throws tray count sides (diceText count sides)
      ((Rule.dice.valueOf (diceText count sides) : Play σ Int).run tray).result := by
  rw [valueOf_diceText, Play.run_bind]
  rcases diceOf_cases count sides with ⟨hdice, hlarge⟩ | ⟨hdice, hcount, hsides⟩ | ⟨dice, hdice, hnamed⟩
  · rw [hdice]
    exact .of_large hlarge
  · rw [hdice]
    exact .of_no_sides hcount hsides
  · rw [hdice]
    show Throws tray count sides _ ((Play.throw dice).run tray).result
    rw [result_throw]
    by_cases hrefused : tray.limit < tray.booked.toNat + dice.count.toNat
    · rw [if_pos hrefused]
      exact .of_refused hnamed hrefused
    · rw [if_neg hrefused]
      exact .of_admitted hnamed (Nat.not_lt.mp hrefused)

/-! ## Redexes -/

theorem run_valueOf_operatorRow {op : Operator} {m : Match} {l r : Digits} (h : m.matched = operatorRow op l r)
    (tray : Tray σ) : ((Rule.binary op).valueOf m.text : Play σ Int).run tray = ⟨combine op l r, tray, []⟩ := by
  rw [Match.text, h, join_operatorRow, Rule.valueOf, valueOf_operatorText, Play.run_ofExcept]

theorem throws_of_diceRow {m : Match} {count : Option Digits} {sides : Digits} (h : m.matched = diceRow count sides)
    (tray : Tray σ) :
    Throws tray count sides m.text ((Rule.dice.valueOf m.text : Play σ Int).run tray).result := by
  have hthrows := throws_valueOf count sides tray
  rwa [← join_diceRow, ← h] at hthrows

/-- A number is too large on a tray: the whole buffer is its numeral, or it is written in the redex or is the result
of that. -/
inductive TooLarge : Text → Tray σ → Prop
  | numeral {d : Digits} (tray : Tray σ) : UInt64.size ≤ d.value → TooLarge d.text tray
  | operator {b : Text} {op : Operator} {m : Match} {l r : Digits} (tray : Tray σ) :
      redex? b = some (.binary op, m) → m.matched = operatorRow op l r → op.Exceeds l.value r.value → TooLarge b tray
  | dice {b : Text} {m : Match} {count : Option Digits} {sides : Digits} {tray : Tray σ} :
      redex? b = some (.dice, m) → m.matched = diceRow count sides → DiceExceed tray count sides → TooLarge b tray

/-- **A buffer is given up with an overflow exactly if a number is too large.** -/
theorem stops_overflow_iff {b : Text} {tray : Tray σ} :
    (∃ last, Stops b tray .overflow last) ↔ TooLarge b tray := by
  constructor
  · rintro ⟨last, hstops⟩
    cases hstops with
    | redex hredex hfails =>
      rcases Rule.cases_of_occurrence? (occurrence_of_redex? hredex) with
        ⟨rfl, count, sides, hm⟩ | ⟨op, l, r, rfl, hm⟩
      · exact .dice hredex hm ((throws_of_diceRow hm tray).overflow.mp hfails.1)
      · have hresult := hfails.1
        rw [run_valueOf_operatorRow hm] at hresult
        exact .operator tray hredex hm ((computes_combine op l r).overflow.mp hresult)
    | numeral _ hread => exact .numeral tray (Digits.size_le_of_read hread).2
  · intro hlarge
    cases hlarge with
    | @numeral d _ hlarge =>
      have hread : d.read = .error .overflow := by
        rw [Digits.read, fit?_eq_none_iff.mpr hlarge]
      exact ⟨tray, .numeral tray hread⟩
    | @operator _ op m l r _ hredex hm hexceeds =>
      have hrun := run_valueOf_operatorRow hm tray
      rw [(computes_combine op l r).overflow.mpr hexceeds] at hrun
      exact ⟨tray, .redex hredex ⟨by rw [hrun], by rw [hrun]⟩⟩
    | dice hredex hm hexceeds => exact ⟨_, .redex hredex ⟨(throws_of_diceRow hm tray).overflow.mpr hexceeds, rfl⟩⟩

/-- No buffer is given up because dice have no sides: their text is malformed. -/
theorem not_stops_noSides {b : Text} {tray last : Tray σ} : ¬ Stops b tray .noSides last := by
  intro hstops
  cases hstops with
  | redex hredex hfails =>
    rcases Rule.cases_of_occurrence? (occurrence_of_redex? hredex) with
      ⟨rfl, count, sides, hm⟩ | ⟨op, l, r, rfl, hm⟩
    · rcases (throws_of_diceRow hm tray).others _ hfails.1 with h | h | h <;> cases h
    · have hresult := hfails.1
      rw [run_valueOf_operatorRow hm] at hresult
      rcases (computes_combine op l r).others _ hresult with h | h <;> cases h
  | numeral _ hread => cases Digits.read_eq_error hread

/-- **The faults of a redex are exact.** An operator in a text stands between two numerals, at which its text is cut. It
overflows exactly if one of them, or their product or sum, is `2 ^ 64` or more, fails to divide exactly if the right one
is zero, and has its exact result otherwise. Dice in a text overflow exactly if their count or their sides are `2 ^ 64` or
more, or their sum; their text is malformed exactly if both numbers fit and there are no sides, and they are refused
exactly if they can be named and the tray does not admit them. So an evaluation never fails for want of sides, and it
overflows exactly if a number is too large in a buffer that it reaches. -/
theorem redex_faults_exact :
    (∀ (op : Operator) (t : Text) (m : Match), (Rule.binary op).occurrence? t = some m → ∃ l r : Digits,
      m.matched = operatorRow op l r ∧ m.text.cut? op.mark = some (l.text, r.text) ∧ ∀ tray : Tray σ, ∃ result,
        ((Rule.binary op).valueOf m.text).run tray = ⟨result, tray, []⟩ ∧ op.Computes l.value r.value result) ∧
    (∀ (t : Text) (m : Match), Rule.dice.occurrence? t = some m → ∃ count sides,
      m.matched = diceRow count sides ∧ m.text.cut? 'd' = some (count.elim [] Digits.text, sides.text) ∧
        ∀ tray : Tray σ, Throws tray count sides m.text ((Rule.dice.valueOf m.text).run tray).result) ∧
    ∀ (t : Text) (tray : Tray σ), ((evaluate t).run tray).result ≠ .error .noSides ∧
      (((evaluate t).run tray).result = .error .overflow ↔
        ∃ b mid, Reaches (unquote t) tray.reset b mid ∧ TooLarge b mid) := by
  refine ⟨fun op t m hm => ?_, fun t m hm => ?_, fun t tray => ⟨fun hfault => ?_, ?_⟩⟩
  · obtain ⟨h, -⟩ | ⟨op', l, r, hop, hmatched⟩ := Rule.cases_of_occurrence? hm
    · cases h
    · obtain rfl := Rule.binary.inj hop
      refine ⟨l, r, hmatched, ?_, fun tray => ⟨_, run_valueOf_operatorRow hmatched tray, computes_combine op l r⟩⟩
      rw [Match.text, hmatched, join_operatorRow, operatorText]
      exact Text.cut?_append (Digits.not_mem (isDigit_mark op)) r.text
  · obtain ⟨-, count, sides, hmatched⟩ | ⟨op, l, r, h, -⟩ := Rule.cases_of_occurrence? hm
    · refine ⟨count, sides, hmatched, ?_, throws_of_diceRow hmatched⟩
      rw [Match.text, hmatched, join_diceRow, cut?_diceText]
    · cases h
  · obtain ⟨b, mid, -, hstops⟩ := evaluate_failsWith_iff.mp ⟨hfault, rfl⟩
    exact not_stops_noSides hstops
  · constructor
    · intro hfault
      obtain ⟨b, mid, hreaches, hstops⟩ := evaluate_failsWith_iff.mp ⟨hfault, rfl⟩
      exact ⟨b, mid, hreaches, stops_overflow_iff.mp ⟨_, hstops⟩⟩
    · rintro ⟨b, mid, hreaches, hlarge⟩
      obtain ⟨last, hstops⟩ := stops_overflow_iff.mpr hlarge
      exact (evaluate_failsWith_iff.mpr ⟨b, mid, hreaches, hstops⟩).1

/-- In `1+007*20d0` there are a product and dice without sides. -/
theorem redex_faults_exact_product :
    let t : Text := "1+007*20d0".toList
    let product : Match := ⟨[.numeral ['1'], .mark '+'],
      [.numeral ['0', '0', '7'], .mark '*', .numeral ['2', '0']], [.mark 'd', .numeral ['0']]⟩
    let dice : Match := ⟨[.numeral ['1'], .mark '+', .numeral ['0', '0', '7'], .mark '*'],
      [.numeral ['2', '0'], .mark 'd', .numeral ['0']], []⟩
    let tray : Tray Cycle := ⟨⟨[1], 0⟩, 3, some 4⟩
    (Rule.binary .multiply).occurrence? t = some product ∧
    (∃ (l r : Digits) (result : Except Fault Int), product.matched = operatorRow .multiply l r ∧
      ((Rule.binary .multiply).valueOf product.text).run tray = ⟨result, tray, []⟩ ∧
        Operator.multiply.Computes l.value r.value result) ∧
    Rule.dice.occurrence? t = some dice ∧
    (∃ count sides, dice.matched = diceRow count sides ∧
      Throws tray count sides dice.text ((Rule.dice.valueOf dice.text).run tray).result) ∧
    ((evaluate t).run tray).result ≠ .error .noSides := by
  intro t product dice tray
  have hproduct : (Rule.binary .multiply).occurrence? t = some product := by decide
  have hdice : Rule.dice.occurrence? t = some dice := by decide
  obtain ⟨hoperators, hthrows, hevaluate⟩ := redex_faults_exact (σ := Cycle)
  obtain ⟨l, r, hmatched, -, hcomputes⟩ := hoperators .multiply t product hproduct
  obtain ⟨result, hrun, hresult⟩ := hcomputes tray
  obtain ⟨count, sides, hmatched', -, hdice'⟩ := hthrows t dice hdice
  refine ⟨hproduct, ⟨l, r, result, hmatched, hrun, hresult⟩, hdice, ⟨count, sides, hmatched', hdice' tray⟩, ?_⟩
  exact (hevaluate t tray).1

end

end TabletopDice
