import Mathlib.Data.Set.Card
import Mathlib.Order.Interval.Finset.Nat
import TabletopDice.Proofs.Faces

/-!
# Random words show every face equally often

The words that a zone accepts for one face are neighbours: their products with the sides lie between a multiple of
`2 ^ 64` and that multiple plus the zone.

- A zone that is one less than a multiple of the sides accepts the same number of words for each face
  (`Die.ncard_wordsFor`). Both zones are of this kind: that of a single roll by a power of two (`Die.rollZone_succ`), that
  of the dice of a sum by the largest number possible (`Die.manyZone_succ`);
- `Finds` searches a source for an accepted word without a bound, and `SumsTo` adds draws that are given by a relation.
  The word `0` is accepted in any zone, so on a script every search ends, and in the word that `Die.sample` takes
  (`Script.drawsFace_sample`).

The main statement is `draws_uniform`.
-/

namespace TabletopDice

namespace Die

/-! ## Zones -/

/-- The number of zeros in front of the binary digits of the sides, in 64 bits. -/
def leadingZeros (die : Die) : Nat := die.sides.toBitVec.clz.toNat

/-- The words that a zone accepts for a face. -/
def wordsFor (die : Die) (zone : Nat) (face : UInt64) : Set UInt64 :=
  {word | die.accepts zone word ∧ die.faceOf word = face}

/-- Moved to the left by its leading zeros, the number of sides has its highest bit in front. -/
theorem leadingZeros_bounds (die : Die) : die.leadingZeros < 64 ∧ 2 ^ (63 - die.leadingZeros) ≤ die.sides.toNat ∧
    die.sides.toNat < 2 ^ (64 - die.leadingZeros) := by
  have hpos := die.sides_pos
  have hne : die.sides.toBitVec ≠ 0#64 := by
    intro h
    have hzero : die.sides.toBitVec.toNat = 0 := by rw [h]; rfl
    exact absurd hzero (Nat.ne_of_gt hpos)
  refine ⟨?_, BitVec.two_pow_sub_clz_le_toNat_of_ne_zero (by decide) hne, BitVec.toNat_lt_two_pow_sub_clz⟩
  exact BitVec.lt_def.mp (BitVec.clz_lt_iff_ne_zero.mpr hne)

theorem leadingZeros_eq (die : Die) : die.leadingZeros = 63 - die.sides.toNat.log2 := by
  obtain ⟨hlt, hlow, hhigh⟩ := die.leadingZeros_bounds
  have hne : die.sides.toNat ≠ 0 := Nat.ne_of_gt die.sides_pos
  have hle := (Nat.le_log2 hne).mpr hlow
  have hge := (Nat.log2_lt hne).mpr hhigh
  omega

/-- The zone of a single roll leaves a power of two of words to each side. -/
theorem rollZone_succ (die : Die) : die.rollZone + 1 = die.sides.toNat * 2 ^ die.leadingZeros := by
  have hpos : 0 < die.sides.toNat * 2 ^ die.leadingZeros := Nat.mul_pos die.sides_pos (Nat.two_pow_pos _)
  have hzone : die.rollZone = die.sides.toNat * 2 ^ die.leadingZeros - 1 := by rw [leadingZeros_eq]; rfl
  omega

/-- That power is so small that no side is lost in 64 bits. -/
theorem sides_mul_two_pow_lt (die : Die) : die.sides.toNat * 2 ^ die.leadingZeros < UInt64.size := by
  obtain ⟨hlt, -, hhigh⟩ := die.leadingZeros_bounds
  have hsize : 2 ^ (64 - die.leadingZeros) * 2 ^ die.leadingZeros = UInt64.size := by
    rw [← Nat.pow_add, Nat.sub_add_cancel (Nat.le_of_lt hlt)]
  rw [← hsize]
  exact Nat.mul_lt_mul_of_pos_right hhigh (Nat.two_pow_pos _)

/-- The zone of the dice of a sum leaves as many words to each side as there are. -/
theorem manyZone_succ (die : Die) : die.manyZone + 1 = die.sides.toNat * (UInt64.size / die.sides.toNat) := by
  have hlt : die.sides.toNat < UInt64.size := die.sides.toNat_lt
  have hmod : (UInt64.size - die.sides.toNat) % die.sides.toNat = UInt64.size % die.sides.toNat :=
    (Nat.mod_eq_sub_mod (Nat.le_of_lt hlt)).symm
  have hrest := Nat.mod_lt UInt64.size die.sides_pos
  have hdiv := Nat.div_add_mod UInt64.size die.sides.toNat
  rw [manyZone, hmod]
  omega

/-- In 64 bits, the zone of a single roll is computed by a shift. -/
theorem rollZone_eq_shift (die : Die) :
    die.rollZone = ((die.sides <<< UInt64.ofNat die.leadingZeros) - 1).toNat := by
  obtain ⟨hlt, -, -⟩ := die.leadingZeros_bounds
  have hsmall := die.sides_mul_two_pow_lt
  have hpos : 0 < die.sides.toNat * 2 ^ die.leadingZeros := Nat.mul_pos die.sides_pos (Nat.two_pow_pos _)
  have hbits : (UInt64.ofNat die.leadingZeros).toNat = die.leadingZeros :=
    UInt64.toNat_ofNat_of_lt' (by show _ < 2 ^ 64; omega)
  have hshift : (die.sides <<< UInt64.ofNat die.leadingZeros).toNat = die.sides.toNat * 2 ^ die.leadingZeros := by
    rw [UInt64.toNat_shiftLeft, hbits, Nat.mod_eq_of_lt hlt, Nat.shiftLeft_eq]
    exact Nat.mod_eq_of_lt hsmall
  have hone : 1 ≤ die.sides <<< UInt64.ofNat die.leadingZeros := by
    rw [UInt64.le_iff_toNat_le, hshift]
    exact hpos
  have hzone := die.rollZone_succ
  rw [UInt64.toNat_sub_of_le _ _ hone, hshift]
  have hword : (1 : UInt64).toNat = 1 := rfl
  omega

/-! ## Words and faces -/

/-- A word is accepted for a face if its product is close enough behind a multiple of `2 ^ 64`. -/
theorem mem_wordsFor_iff (die : Die) {zone : Nat} (hzone : zone < UInt64.size) {face : UInt64}
    (hface : 1 ≤ face.toNat) (word : UInt64) : word ∈ die.wordsFor zone face ↔
      (face.toNat - 1) * UInt64.size ≤ die.spread word ∧ die.spread word ≤ (face.toNat - 1) * UInt64.size + zone := by
  have hdiv := Nat.div_add_mod (die.spread word) UInt64.size
  have hmod := Nat.mod_lt (die.spread word) (show 0 < UInt64.size by decide)
  have hmem : word ∈ die.wordsFor zone face ↔
      die.spread word % UInt64.size ≤ zone ∧ die.spread word / UInt64.size = face.toNat - 1 := by
    rw [wordsFor, Set.mem_ofPred_eq, accepts, decide_eq_true_eq, ← UInt64.toNat_inj, toNat_faceOf]
    omega
  rw [hmem]
  constructor
  · rintro ⟨hrest, hquotient⟩
    rw [hquotient, Nat.mul_comm] at hdiv
    omega
  · rintro ⟨hlow, hhigh⟩
    have hquotient : die.spread word / UInt64.size = face.toNat - 1 := by
      apply Nat.div_eq_of_lt_le
      · exact hlow
      · rw [Nat.succ_mul]
        omega
    rw [hquotient, Nat.mul_comm] at hdiv
    omega

/-- **A zone that leaves `m` words to each side accepts `m` words for each face.** -/
theorem ncard_wordsFor (die : Die) {zone m : Nat} (hzone : zone + 1 = die.sides.toNat * m) (hsize : zone < UInt64.size)
    {face : UInt64} (hface : 1 ≤ face.toNat) (hmost : face.toNat ≤ die.sides.toNat) :
    (die.wordsFor zone face).ncard = m := by
  have hpos := die.sides_pos
  let base := (face.toNat - 1) * UInt64.size
  have hbase : base + UInt64.size ≤ die.sides.toNat * UInt64.size := by
    rw [← Nat.succ_mul]
    exact Nat.mul_le_mul_right _ (by omega)
  -- the words begin with the first one whose product is no smaller than the base
  let first := (base + (die.sides.toNat - 1)) / die.sides.toNat
  have hfirst : ∀ n, first ≤ n ↔ base ≤ n * die.sides.toNat := by
    intro n
    rw [Nat.div_le_iff_le_mul_add_pred hpos, Nat.mul_comm]
    omega
  have hlast : ∀ n, first + m ≤ n ↔ base + zone < n * die.sides.toNat := by
    intro n
    have hsum : first + m = (base + (die.sides.toNat - 1) + die.sides.toNat * m) / die.sides.toNat :=
      (Nat.add_mul_div_left _ _ hpos).symm
    rw [hsum, Nat.div_le_iff_le_mul_add_pred hpos, ← hzone, Nat.mul_comm]
    omega
  have himage : UInt64.toNat '' die.wordsFor zone face = Finset.Ico first (first + m) := by
    ext n
    rw [Finset.mem_coe, Finset.mem_Ico, hfirst, ← Nat.not_le, hlast]
    constructor
    · rintro ⟨word, hword, rfl⟩
      obtain ⟨hlow, hhigh⟩ := (die.mem_wordsFor_iff hsize hface word).mp hword
      exact ⟨hlow, Nat.not_lt.mpr hhigh⟩
    · rintro ⟨hlow, hhigh⟩
      have hn : n < UInt64.size := by
        apply Nat.lt_of_mul_lt_mul_right (a := die.sides.toNat)
        rw [Nat.mul_comm UInt64.size]
        omega
      have hvalue : (UInt64.ofNat n).toNat = n := UInt64.toNat_ofNat_of_lt' hn
      refine ⟨UInt64.ofNat n, (die.mem_wordsFor_iff hsize hface _).mpr ?_, hvalue⟩
      rw [spread, hvalue]
      exact ⟨hlow, Nat.not_lt.mp hhigh⟩
  rw [← Set.ncard_image_of_injective _ (fun _ _ => UInt64.toNat_inj.mp), himage, Set.ncard_coe_finset, Nat.card_Ico]
  omega

/-- The word `0` is accepted in any zone. -/
theorem accepts_zero (die : Die) (zone : Nat) : die.accepts zone 0 = true := by
  simp [accepts, spread]

end Die

/-! ## Searches without a bound -/

section

variable {γ : Type} [WordSource γ] {accepts : UInt64 → Bool}

/-- From the first source, a search that goes on until a word is accepted comes to the word, and leaves the second
source. -/
inductive Finds (accepts : UInt64 → Bool) : γ → UInt64 → γ → Prop
  | here (source : γ) : accepts (WordSource.next source).1 = true →
      Finds accepts source (WordSource.next source).1 (WordSource.next source).2
  | later (source : γ) {word : UInt64} {rest : γ} : accepts (WordSource.next source).1 = false →
      Finds accepts (WordSource.next source).2 word rest → Finds accepts source word rest

/-- A draw of a face, by a search without a bound. -/
def DrawsFace (die : Die) (zone : Nat) (source : γ) (face : UInt64) (rest : γ) : Prop :=
  ∃ word, Finds (die.accepts zone) source word rest ∧ face = die.faceOf word

/-- What a bounded search finds, a search without a bound finds. -/
theorem finds_of_firstAccepted {n : Nat} {source rest : γ} {word : UInt64}
    (h : firstAccepted accepts n source = (some word, rest)) : Finds accepts source word rest := by
  induction n generalizing source with
  | zero => cases h
  | succ n ih =>
    rw [firstAccepted] at h
    cases haccepts : accepts (WordSource.next source).1 with
    | true =>
      simp only [haccepts, if_true, Prod.mk.injEq, Option.some.injEq] at h
      obtain ⟨rfl, rfl⟩ := h
      exact .here source haccepts
    | false =>
      simp only [haccepts, Bool.false_eq_true, if_false] at h
      exact .later source haccepts (ih h)

end

section

variable {σ : Type}

/-- Draws are added to a sum, each of them as the relation says, until there are no more or the sum does not fit. -/
inductive SumsTo (draws : σ → UInt64 → σ → Prop) : Nat → UInt64 → σ → Option UInt64 → σ → Prop
  | done (sum : UInt64) (s : σ) : SumsTo draws 0 sum s (some sum) s
  | tooLarge {n : Nat} {sum face : UInt64} {s rest : σ} : draws s face rest → fit? (sum.toNat + face.toNat) = none →
      SumsTo draws (n + 1) sum s none rest
  | more {n : Nat} {sum face grown : UInt64} {s rest last : σ} {total : Option UInt64} : draws s face rest →
      fit? (sum.toNat + face.toNat) = some grown → SumsTo draws n grown rest total last →
      SumsTo draws (n + 1) sum s total last

/-- A sum comes to an end if each of its draws does. -/
theorem sumsTo_sumDraws {draws : σ → UInt64 → σ → Prop} {draw : σ → UInt64 × σ}
    (h : ∀ s, draws s (draw s).1 (draw s).2) (n : Nat) (sum : UInt64) (s : σ) :
    SumsTo draws n sum s (sumDraws draw n sum s).1 (sumDraws draw n sum s).2 := by
  induction n generalizing sum s with
  | zero => exact .done sum s
  | succ n ih =>
    simp only [sumDraws]
    cases hfit : fit? (sum.toNat + (draw s).1.toNat) with
    | none => exact .tooLarge (h s) hfit
    | some grown => exact .more (h s) hfit (ih grown (draw s).2)

end

/-! ## Scripts -/

namespace Script

/-- On a script, a search ends among the words of the script and the `0` behind them. -/
theorem exists_firstAccepted {accepts : UInt64 → Bool} (hzero : accepts 0 = true) (script : Script) :
    ∃ word rest, firstAccepted accepts (WordSource.horizon script) script = (some word, rest) := by
  obtain ⟨words⟩ := script
  show ∃ word rest, firstAccepted accepts (words.length + 1) (⟨words⟩ : Script) = (some word, rest)
  induction words with
  | nil => exact ⟨0, ⟨[]⟩, by rw [firstAccepted]; exact if_pos hzero⟩
  | cons word words ih =>
    have hnext : WordSource.next (⟨word :: words⟩ : Script) = (word, ⟨words⟩) := rfl
    rw [List.length_cons, firstAccepted, hnext]
    by_cases haccepts : accepts word = true
    · exact ⟨word, ⟨words⟩, if_pos haccepts⟩
    · simp only [if_neg haccepts]
      exact ih

/-- **On a script, every draw ends**, with the face that is sampled. -/
theorem drawsFace_sample (die : Die) (zone : Nat) (script : Script) :
    DrawsFace die zone script (die.sample zone script).1 (die.sample zone script).2 := by
  obtain ⟨word, rest, hfirst⟩ := exists_firstAccepted (die.accepts_zero zone) script
  refine ⟨word, ?_, ?_⟩
  · rw [Die.sample, hfirst]
    exact finds_of_firstAccepted hfirst
  · rw [Die.sample, hfirst]

end Script

/-- **Random words show every face equally often.** A single roll accepts a word in the zone that is the number of sides,
moved to the left by its leading zeros, less one; a die of a sum accepts it in the largest zone that leaves the same
number of words to each side. Then of all words, the first zone accepts `2` to the number of leading zeros for each face,
and the second one `2 ^ 64` divided by the sides. No word stands for anything but a face. Since the word `0` is accepted,
each roll and each sum of rolls ends on a script. -/
theorem draws_uniform (die : Die) :
    (die.rollZone = ((die.sides <<< UInt64.ofNat die.leadingZeros) - 1).toNat ∧
      die.manyZone = (2 ^ 64 - 1) - (2 ^ 64 - die.sides.toNat) % die.sides.toNat) ∧
    (∀ face : UInt64, 1 ≤ face.toNat → face.toNat ≤ die.sides.toNat →
      {word | die.accepts die.rollZone word ∧ die.faceOf word = face}.ncard = 2 ^ die.leadingZeros ∧
      {word | die.accepts die.manyZone word ∧ die.faceOf word = face}.ncard = 2 ^ 64 / die.sides.toNat) ∧
    (∀ word, 1 ≤ (die.faceOf word).toNat ∧ (die.faceOf word).toNat ≤ die.sides.toNat) ∧
    (die.accepts die.rollZone 0 ∧ die.accepts die.manyZone 0) ∧
    ∀ script : Script,
      DrawsFace die die.rollZone script (Roller.roll die script).1 (Roller.roll die script).2 ∧
      ∀ n, SumsTo (DrawsFace die die.manyZone) n 0 script (Roller.rollMany n die script).1
        (Roller.rollMany n die script).2 := by
  refine ⟨⟨die.rollZone_eq_shift, rfl⟩, fun face hface hmost => ⟨?_, ?_⟩, die.faceOf_bounds, ⟨?_, ?_⟩,
    fun script => ⟨?_, fun n => ?_⟩⟩
  · have hzone := die.rollZone_succ
    have hlt := die.sides_mul_two_pow_lt
    exact die.ncard_wordsFor hzone (by omega) hface hmost
  · have hzone := die.manyZone_succ
    have hle := Nat.mul_div_le UInt64.size die.sides.toNat
    exact die.ncard_wordsFor hzone (by omega) hface hmost
  · exact die.accepts_zero _
  · exact die.accepts_zero _
  · exact Script.drawsFace_sample die die.rollZone script
  · exact sumsTo_sumDraws (Script.drawsFace_sample die die.manyZone) n 0 script

/-- With six sides there are sixty-one zeros in front. -/
theorem draws_uniform_six :
    let die : Die := ⟨6, by decide⟩
    let face : UInt64 := 6
    1 ≤ face.toNat ∧ face.toNat ≤ die.sides.toNat ∧
      {word | die.accepts die.rollZone word ∧ die.faceOf word = face}.ncard = 2 ^ 61 ∧
      {word | die.accepts die.manyZone word ∧ die.faceOf word = face}.ncard = 3074457345618258602 := by
  intro die face
  have hface : 1 ≤ face.toNat := by decide
  have hmost : face.toNat ≤ die.sides.toNat := by decide
  have hsides : die.sides.toNat = 6 := rfl
  have hzeros : die.leadingZeros = 61 := by
    rw [Die.leadingZeros_eq, hsides]
    decide
  obtain ⟨-, hcount, -⟩ := draws_uniform die
  obtain ⟨hroll, hmany⟩ := hcount face hface hmost
  rw [hzeros] at hroll
  rw [hsides] at hmany
  exact ⟨hface, hmost, hroll, hmany⟩

end TabletopDice
