import TabletopDice.Proofs.Bookings
import TabletopDice.Proofs.Faces

/-!
# Plays between their lowest and highest rolls

Three runs are compared: one with the lowest face of every die, one with the highest, and one with faces in between. The
runs may roll different dice, since their counts and sides may have been rolled before.

- `Tray.Between` compares the trays: as for budgets they are equal, and as for booked dice the middle one is between the
  other two;
- `Play.Between` says that the middle run comes to a value if both extreme runs do, and that the three values are
  related. Plays in a row have it if each of them has (`between_bind`), and so has a roll of dice that lie between
  others (`between_roll`): the middle one rolls no more dice than the highest one, so they fit in the budget, and shows
  no larger total, so it fits in 64 bits.
-/

namespace TabletopDice

/-! ## Numbers in order -/

/-- Three numbers in order. -/
def Ordered (a b c : UInt64) : Prop := a ≤ b ∧ b ≤ c

/-- Three numerals whose values are in order. -/
def Digits.Rising (a b c : Digits) : Prop := a.value ≤ b.value ∧ b.value ≤ c.value

/-- Three equal things. -/
def Same {α : Type} (a b c : α) : Prop := a = b ∧ b = c

/-- What comes out in the middle is related to what comes out at both ends, if anything does. -/
def ResultsBetween {α : Type} (low mid high : Except Fault α) (rel : α → α → α → Prop) : Prop :=
  ∀ a c, low = .ok a → high = .ok c → ∃ b, mid = .ok b ∧ rel a b c

theorem resultsBetween_bind {α β : Type} {low mid high : Except Fault α} {rel : α → α → α → Prop}
    {f g h : α → Except Fault β} {rel' : β → β → β → Prop} (hresults : ResultsBetween low mid high rel)
    (hnext : ∀ a b c, rel a b c → ResultsBetween (f a) (g b) (h c) rel') :
    ResultsBetween (low >>= f) (mid >>= g) (high >>= h) rel' := by
  intro x z hx hz
  cases low with
  | error fault => cases hx
  | ok a =>
    cases high with
    | error fault => cases hz
    | ok c =>
      obtain ⟨b, rfl, hrel⟩ := hresults a c rfl rfl
      exact hnext a b c hrel x z hx hz

/-- A numeral between others fits if the largest does. -/
theorem Digits.Rising.read {a b c : Digits} (h : Digits.Rising a b c) :
    ResultsBetween a.read b.read c.read fun x y z => Ordered x y z ∧ (Same a b c → Same x y z) := by
  intro x z hx hz
  have hx' := Digits.toNat_of_read hx
  have hz' := Digits.toNat_of_read hz
  have hz'' := z.toNat_lt
  obtain ⟨hle, hle'⟩ := h
  cases hfit : fit? b.value with
  | none =>
    have hlarge : 2 ^ 64 ≤ b.value := fit?_eq_none_iff.mp hfit
    omega
  | some y =>
    have hy : b.read = .ok y := by rw [Digits.read, hfit]
    have hy' := Digits.toNat_of_read hy
    refine ⟨y, hy, ⟨UInt64.le_iff_toNat_le.mpr (by omega), UInt64.le_iff_toNat_le.mpr (by omega)⟩, ?_⟩
    rintro ⟨rfl, rfl⟩
    rw [hx] at hy hz
    exact ⟨Except.ok.inj hy, (Except.ok.inj hy).symm.trans (Except.ok.inj hz)⟩

section

variable {σ α β : Type} {good : σ → Prop}

/-! ## Trays and plays -/

/-- Trays with the lowest and the highest roller, and a tray in good state between them. -/
structure Tray.Between (good : σ → Prop) (low : Tray Fixed) (mid : Tray σ) (high : Tray Fixed) : Prop where
  lowest : low.roller = ⟨1⟩
  good : good mid.roller
  highest : high.roller = ⟨18446744073709551615⟩
  budget : low.budget = mid.budget ∧ high.budget = mid.budget
  booked : Ordered low.booked mid.booked high.booked

/-- If the two extreme runs come to values, so does the run between them, and the values are related. -/
def Play.Between (good : σ → Prop) (low : Play Fixed α) (mid : Play σ α) (high : Play Fixed α)
    (rel : α → α → α → Prop) : Prop :=
  ∀ t t' t'', Tray.Between good t t' t'' → ∀ a c, (low.run t).result = .ok a → (high.run t'').result = .ok c →
    ∃ b, (mid.run t').result = .ok b ∧ rel a b c ∧
      Tray.Between good (low.run t).tray (mid.run t').tray (high.run t'').tray

theorem between_ofExcept {low mid high : Except Fault α} {rel : α → α → α → Prop}
    (h : ResultsBetween low mid high rel) :
    Play.Between good (Play.ofExcept low) (Play.ofExcept mid) (Play.ofExcept high) rel := by
  intro t t' t'' ht a c ha hc
  obtain ⟨b, hb, hrel⟩ := h a c ha hc
  exact ⟨b, hb, hrel, ht⟩

theorem between_pure {a b c : α} {rel : α → α → α → Prop} (h : rel a b c) :
    Play.Between good (pure a) (pure b) (pure c) rel := by
  intro t t' t'' ht x z hx hz
  obtain rfl := Except.ok.inj hx
  obtain rfl := Except.ok.inj hz
  exact ⟨b, rfl, h, ht⟩

/-- **Plays in a row are between plays in a row.** -/
theorem between_bind {low high : Play Fixed α} {mid : Play σ α} {rel : α → α → α → Prop} {f h : α → Play Fixed β}
    {g : α → Play σ β} {rel' : β → β → β → Prop} (hplay : Play.Between good low mid high rel)
    (hnext : ∀ a b c, rel a b c → Play.Between good (f a) (g b) (h c) rel') :
    Play.Between good (low >>= f) (mid >>= g) (high >>= h) rel' := by
  intro t t' t'' ht x z hx hz
  obtain ⟨a, ha, hx⟩ := Play.bind_eq_ok hx
  obtain ⟨c, hc, hz⟩ := Play.bind_eq_ok hz
  obtain ⟨b, hb, hrel, ht'⟩ := hplay t t' t'' ht a c ha hc
  rw [Play.run_bind_of_ok ha, Play.run_bind_of_ok hb, Play.run_bind_of_ok hc]
  exact hnext a b c hrel _ _ _ ht' x z hx hz

/-! ## Rolls -/

/-- Fewer dice on top of fewer fit in the same budget. -/
theorem Tray.exists_book_of_le {τ : Type} {tray : Tray σ} {tray' booked' : Tray τ} {count count' : UInt64}
    (hbudget : tray.budget = tray'.budget) (hbooked : tray.booked.toNat ≤ tray'.booked.toNat)
    (hcount : count.toNat ≤ count'.toNat) (h : tray'.book count' = some booked') :
    ∃ booked, tray.book count = some booked := by
  refine Option.ne_none_iff_exists'.mp fun hnone => ?_
  have hlimit : tray.limit = tray'.limit := by rw [limit, limit, hbudget]
  have hexceeds := book_eq_none_iff.mp hnone
  have hnone' : tray'.book count' = none := book_eq_none_iff.mpr (by omega)
  rw [hnone'] at h
  cases h

/-- What is no larger than a number of 64 bits fits in them. -/
theorem exists_fit?_of_le {n : Nat} {bound : UInt64} (h : n ≤ bound.toNat) : ∃ m, fit? n = some m := by
  refine Option.ne_none_iff_exists'.mp fun hnone => ?_
  have hlarge : UInt64.size ≤ n := fit?_eq_none_iff.mp hnone
  have hbound : bound.toNat < UInt64.size := bound.toNat_lt
  omega

variable [Roller σ]

/-- Dice that have been booked show a total between the bounds of their faces, times their number. -/
theorem Roller.Shows.roll_of_book {least most : Die → Nat} (h : Roller.Shows good least most) {tray booked : Tray σ}
    (hgood : good tray.roller) {dice : Dice} (hbook : tray.book dice.count = some booked) :
    ∃ total, dice.count.toNat * least dice.die ≤ total ∧ total ≤ dice.count.toNat * most dice.die ∧
      (tray.roll dice).1 = (fit? total).elim (.error .overflow) .ok ∧
      (tray.roll dice).2.booked = booked.booked ∧ (tray.roll dice).2.budget = tray.budget ∧
      good (tray.roll dice).2.roller := by
  obtain ⟨hroller, hbudget, -, -⟩ := Tray.book_eq_some hbook
  have hgood' : good booked.roller := by rw [hroller]; exact hgood
  obtain ⟨total, hleast, hmost, hsum, hkept⟩ := h.draw hgood' dice
  simp only [Tray.draw_eq] at hsum hkept
  refine ⟨total, hleast, hmost, ?_⟩
  rw [Tray.roll_of_book hbook, hsum]
  exact ⟨rfl, rfl, hbudget, hkept⟩

/-- A roll that comes to a value has booked its dice. -/
theorem Tray.exists_book_of_roll {tray : Tray σ} {dice : Dice} {value : UInt64} (h : (tray.roll dice).1 = .ok value) :
    ∃ booked, tray.book dice.count = some booked := by
  cases hbook : tray.book dice.count with
  | none => rw [Tray.roll_of_no_book hbook] at h; cases h
  | some booked => exact ⟨booked, rfl⟩

theorem elim_fit?_eq_ok {total : Nat} {value : UInt64}
    (h : (fit? total).elim (.error .overflow) .ok = (.ok value : Except Fault UInt64)) : value.toNat = total := by
  cases hfit : fit? total with
  | none => rw [hfit] at h; cases h
  | some n =>
    rw [hfit] at h
    obtain rfl := Except.ok.inj h
    exact fit?_eq_some_iff.mp hfit

/-- **A roll is between rolls of fewer and of more dice**, with fewer and with more sides. -/
theorem between_roll (hshows : Roller.Shows good (fun _ => 1) fun die => die.sides.toNat) {low mid high : Dice}
    (hcount : Ordered low.count mid.count high.count) (hsides : mid.die.sides ≤ high.die.sides) :
    Play.Between good (Play.roll low) (Play.roll mid) (Play.roll high) Ordered := by
  intro t t' t'' ht a c ha hc
  rw [Play.run_roll] at ha hc
  simp only [Play.run_roll]
  obtain ⟨lowBooked, hlow⟩ := Tray.exists_book_of_roll ha
  obtain ⟨highBooked, hhigh⟩ := Tray.exists_book_of_roll hc
  obtain ⟨n, hn, hn', hna, hlowBooked, hlowBudget, hlowest⟩ := shows_lowest.roll_of_book ht.lowest hlow
  obtain ⟨m, hm, hm', hmc, hhighBooked, hhighBudget, hhighest⟩ := shows_highest.roll_of_book ht.highest hhigh
  obtain ⟨-, -, hlowCount, -⟩ := Tray.book_eq_some hlow
  obtain ⟨-, -, hhighCount, -⟩ := Tray.book_eq_some hhigh
  obtain ⟨hbooked, hbooked'⟩ := ht.booked
  obtain ⟨hcount, hcount'⟩ := hcount
  rw [UInt64.le_iff_toNat_le] at hbooked hbooked' hcount hcount' hsides
  -- the dice in the middle fit in the budget as the highest ones do
  obtain ⟨midBooked, hmid⟩ := Tray.exists_book_of_le ht.budget.2.symm hbooked' hcount' hhigh
  obtain ⟨-, -, hmidCount, -⟩ := Tray.book_eq_some hmid
  obtain ⟨k, hk, hk', hkb, hmidBooked, hmidBudget, hgood⟩ := hshows.roll_of_book ht.good hmid
  -- and so does their total in 64 bits
  have hna' := elim_fit?_eq_ok (hna ▸ ha)
  have hmc' := elim_fit?_eq_ok (hmc ▸ hc)
  have hmost : mid.count.toNat * mid.die.sides.toNat ≤ high.count.toNat * high.die.sides.toNat :=
    Nat.mul_le_mul hcount' hsides
  obtain ⟨b, hb⟩ := exists_fit?_of_le (by omega : k ≤ c.toNat)
  have hb' := fit?_eq_some_iff.mp hb
  rw [hb] at hkb
  refine ⟨b, hkb, ⟨UInt64.le_iff_toNat_le.mpr (by omega), UInt64.le_iff_toNat_le.mpr (by omega)⟩, ?_⟩
  refine ⟨hlowest, hgood, hhighest, ⟨?_, ?_⟩, ?_, ?_⟩
  · rw [hlowBudget, hmidBudget, ht.budget.1]
  · rw [hhighBudget, hmidBudget, ht.budget.2]
  · rw [hlowBooked, hmidBooked, UInt64.le_iff_toNat_le]
    omega
  · rw [hhighBooked, hmidBooked, UInt64.le_iff_toNat_le]
    omega

/-- The number of dice that a count stands for is between those of smaller and larger counts, even though zero stands
for one. -/
theorem Digits.Rising.count {a b c : Digits} (h : Digits.Rising a b c) :
    ResultsBetween (countOf (some a)) (countOf (some b)) (countOf (some c)) Ordered := by
  refine resultsBetween_bind h.read fun x y z hxyz => ?_
  obtain ⟨⟨hxy, hyz⟩, -⟩ := hxyz
  rintro _ _ ⟨rfl⟩ ⟨rfl⟩
  refine ⟨_, rfl, ?_⟩
  rw [UInt64.le_iff_toNat_le] at hxy hyz
  have hone : (1 : UInt64).toNat = 1 := rfl
  have hzero : ∀ n : UInt64, n = 0 ↔ n.toNat = 0 := fun n => UInt64.toNat_inj.symm
  simp only [Ordered, UInt64.le_iff_toNat_le, hzero]
  split <;> split <;> split <;> omega

/-- **Dice are between dice**, if their counts and sides are. -/
theorem between_throwDice (hshows : Roller.Shows good (fun _ => 1) fun die => die.sides.toNat)
    {count count' count'' : Option Digits} {sides sides' sides'' : Digits}
    (hcount : ResultsBetween (countOf count) (countOf count') (countOf count'') Ordered)
    (hsides : Digits.Rising sides sides' sides'') :
    Play.Between good (throwDice count sides) (throwDice count' sides') (throwDice count'' sides'') Ordered := by
  have hdice : ResultsBetween (diceOf count sides) (diceOf count' sides') (diceOf count'' sides'') fun low mid high =>
      Ordered low.count mid.count high.count ∧ mid.die.sides ≤ high.die.sides := by
    refine resultsBetween_bind hcount fun n n' n'' hn => resultsBetween_bind hsides.read fun s s' s'' hs => ?_
    obtain ⟨⟨hs, hs'⟩, -⟩ := hs
    rw [UInt64.le_iff_toNat_le] at hs
    intro low high hlow hhigh
    -- the sides of the lowest dice are no fewer than one, so those of the other dice are, too
    by_cases hpos : 0 < s.toNat
    · have hpos' : 0 < s'.toNat := by omega
      have hpos'' : 0 < s''.toNat := by
        rw [UInt64.le_iff_toNat_le] at hs'
        omega
      simp only [Die.ofSides?, dif_pos hpos] at hlow
      simp only [Die.ofSides?, dif_pos hpos''] at hhigh
      obtain rfl := Except.ok.inj hlow
      obtain rfl := Except.ok.inj hhigh
      simp only [Die.ofSides?, dif_pos hpos']
      exact ⟨_, rfl, hn, hs'⟩
    · simp only [Die.ofSides?, dif_neg hpos] at hlow
      cases hlow
  exact between_bind (between_ofExcept hdice) fun low mid high hd => between_roll hshows hd.1 hd.2

end
end TabletopDice
