import TabletopDice.Text

/-!
# Decimal numerals of 64-bit numbers

- `fit?` keeps the natural numbers below `2 ^ 64`: every sum, product and total of the library is taken in the
  natural numbers and then has to fit;
- `Numeral.read` reads ASCII digits from the left, with at most one `+` in front of them, and reports the
  first problem it meets; on digits alone it is decided by their value (`readFrom_of_digits`);
- `Numeral.write` and `Numeral.writeInt` give the digits of a number without leading zeros; they hold digits
  only (`isDigit_of_mem_write`) and are never empty (`write_ne_nil`).
-/

namespace TabletopDice

/-- The 64-bit number equal to `n`, if there is one. -/
def fit? (n : Nat) : Option UInt64 :=
  if n < UInt64.size then some (UInt64.ofNat n) else none

/-- A number fits exactly if some 64-bit number has its value. -/
theorem fit?_eq_some_iff {n : Nat} {w : UInt64} : fit? n = some w ↔ w.toNat = n := by
  unfold fit?
  split
  · rename_i h
    rw [Option.some.injEq]
    constructor
    · rintro rfl; exact UInt64.toNat_ofNat_of_lt' h
    · rintro rfl; exact UInt64.ofNat_toNat
  · rename_i h
    simp only [reduceCtorEq, false_iff]
    rintro rfl; exact h w.toNat_lt

/-- A number fits unless it is `2 ^ 64` or more. -/
theorem fit?_eq_none_iff {n : Nat} : fit? n = none ↔ UInt64.size ≤ n := by
  unfold fit?; split <;> simp <;> omega

namespace Numeral

/-- Why a text is not the numeral of a 64-bit number. -/
inductive Fault
  | empty
  | invalidDigit
  | tooLarge
  deriving DecidableEq, Repr

/-- The wording of a fault. -/
def Fault.message : Fault → String
  | .empty => "cannot parse integer from empty string"
  | .invalidDigit => "invalid digit found in string"
  | .tooLarge => "number too large to fit in target type"

/-- Reads on, the digits before having the value `value`; a character that is no digit is reported before a
value that grows too large at it. -/
def readFrom (value : Nat) : Text → Except Fault UInt64
  | [] => .ok (UInt64.ofNat value)
  | c :: rest =>
    if c.isDigit then
      let grown := 10 * value + (c.toNat - '0'.toNat)
      if grown < UInt64.size then readFrom grown rest else .error .tooLarge
    else .error .invalidDigit

/-- The number that a text writes: digits, after one `+` or none. -/
def read : Text → Except Fault UInt64
  | [] => .error .empty
  | '+' :: c :: rest => readFrom 0 (c :: rest)
  | text => readFrom 0 text

/-- The decimal digits of a number. -/
def write (n : Nat) : Text := Nat.toDigits 10 n

/-- The decimal digits of an integer, after a `-` if it is negative. -/
def writeInt : Int → Text
  | .ofNat n => write n
  | .negSucc n => '-' :: write (n + 1)

/-! ## Reading digits -/

/-- Further digits never make a value smaller. -/
theorem le_ofDigitChars (ds : Text) (value : Nat) : value ≤ Nat.ofDigitChars 10 ds value := by
  induction ds generalizing value with
  | nil => exact Nat.le_refl _
  | cons c rest ih => rw [Nat.ofDigitChars_cons]; exact Nat.le_trans (by omega) (ih _)

/-- Digits read as their value if it fits, and are too large otherwise. -/
theorem readFrom_of_digits {ds : Text} (hds : ∀ c ∈ ds, c.isDigit) {value : Nat} (hv : value < UInt64.size) :
    readFrom value ds =
      if Nat.ofDigitChars 10 ds value < UInt64.size then .ok (UInt64.ofNat (Nat.ofDigitChars 10 ds value))
      else .error .tooLarge := by
  induction ds generalizing value with
  | nil => simp [readFrom, hv]
  | cons c rest ih =>
    simp only [readFrom, hds c List.mem_cons_self, if_true, Nat.ofDigitChars_cons]
    split
    · rename_i h; exact ih (fun d hd => hds d (List.mem_cons_of_mem _ hd)) h
    · rename_i h
      have := le_ofDigitChars rest (10 * value + (c.toNat - '0'.toNat))
      rw [if_neg (by omega)]

/-! ## Writing -/

/-- A written number has digits only. -/
theorem isDigit_of_mem_write {n : Nat} {c : Char} (h : c ∈ write n) : c.isDigit :=
  Nat.isDigit_of_mem_toDigits (by decide) (by decide) h

/-- A written number has a digit. -/
theorem write_ne_nil (n : Nat) : write n ≠ [] := Nat.toDigits_ne_nil

/-- An integer is written as digits, or as a `-` and digits. -/
theorem writeInt_eq (v : Int) : writeInt v = write v.natAbs ∨ writeInt v = '-' :: write v.natAbs := by
  cases v with
  | ofNat n => exact Or.inl rfl
  | negSucc n => exact Or.inr rfl

end Numeral
end TabletopDice
