import Mathlib.Algebra.Order.BigOperators.Group.List
import Mathlib.Algebra.Order.Ring.Nat
import Mathlib.Logic.Function.Iterate
import TabletopDice.Roller.Replay
import TabletopDice.Roller.Sampling
import TabletopDice.Tray

/-!
# Rollers by their faces

Of a roller, only the bounds of its faces are looked at here, and that several dice show the sum of such faces.

- `Roller.Shows` names a least and a highest face for each die, and the states in which the roller keeps to them;
- draws that are added one by one give the checked sum of their faces (`sumDraws_fst`) and, if it fits, leave the roller
  where so many single steps do (`sumDraws_snd`). A roller that adds them shows what they show (`shows_of_draws`);
- random words and cycles of faces show faces from `1` up to the number of sides (`shows_words`, `shows_cycle`), and the
  two extreme rollers always show the lowest face (`shows_lowest`) and the highest (`shows_highest`);
- the total of dice is between its bounds times their number (`Roller.Shows.draw`).
-/

namespace TabletopDice

section

variable {σ : Type}

/-- From a good state, a draw gives a face within bounds, and leaves a good state. -/
def DrawsWithin (good : σ → Prop) (least most : Nat) (draw : σ → UInt64 × σ) : Prop :=
  ∀ s, good s → least ≤ (draw s).1.toNat ∧ (draw s).1.toNat ≤ most ∧ good (draw s).2

/-- The faces of so many dice, and their sum. -/
def IsSumOf (n least most total : Nat) : Prop :=
  ∃ faces : List UInt64, faces.length = n ∧ (∀ face ∈ faces, least ≤ face.toNat ∧ face.toNat ≤ most) ∧
    (faces.map UInt64.toNat).sum = total

/-- From a good state, the roller shows faces within the bounds of the die. Several dice show the sum of such faces, if
it fits in 64 bits. -/
structure Roller.Shows [Roller σ] (good : σ → Prop) (least most : Die → Nat) : Prop where
  roll : ∀ die, DrawsWithin good (least die) (most die) (Roller.roll die)
  rollMany : ∀ n die s, good s → (∃ total, IsSumOf n (least die) (most die) total ∧
    (Roller.rollMany n die s).1 = fit? total) ∧ good (Roller.rollMany n die s).2

/-- A sum of faces is between its bounds times their number. -/
theorem IsSumOf.bounds {n least most total : Nat} (h : IsSumOf n least most total) :
    n * least ≤ total ∧ total ≤ n * most := by
  obtain ⟨faces, rfl, hfaces, rfl⟩ := h
  have hleast := (faces.map UInt64.toNat).card_nsmul_le_sum least
    (by simpa using fun face hface => (hfaces face hface).1)
  have hmost := (faces.map UInt64.toNat).sum_le_card_nsmul most (by simpa using fun face hface => (hfaces face hface).2)
  simp only [List.length_map, nsmul_eq_mul] at hleast hmost
  exact ⟨hleast, hmost⟩

/-! ## Draws in a row -/

/-- The faces of so many draws, in their order. -/
def drawFaces (draw : σ → UInt64 × σ) : Nat → σ → List UInt64
  | 0, _ => []
  | n + 1, s => (draw s).1 :: drawFaces draw n (draw s).2

@[simp] theorem length_drawFaces (draw : σ → UInt64 × σ) (n : Nat) (s : σ) : (drawFaces draw n s).length = n := by
  induction n generalizing s with
  | zero => rfl
  | succ n ih => rw [drawFaces, List.length_cons, ih]

/-- **Draws that are added one by one give the checked sum of all their faces.** Where the sum becomes too large and no
more faces are drawn, it does not fit with those, either. -/
theorem sumDraws_fst (draw : σ → UInt64 × σ) (n : Nat) (sum : UInt64) (s : σ) :
    (sumDraws draw n sum s).1 = fit? (sum.toNat + ((drawFaces draw n s).map UInt64.toNat).sum) := by
  induction n generalizing sum s with
  | zero => exact (fit?_eq_some_iff.mpr rfl).symm
  | succ n ih =>
    simp only [sumDraws, drawFaces, List.map_cons, List.sum_cons]
    cases hfit : fit? (sum.toNat + (draw s).1.toNat) with
    | none =>
      have hlarge := fit?_eq_none_iff.mp hfit
      refine (fit?_eq_none_iff.mpr ?_).symm
      omega
    | some grown =>
      have hgrown := fit?_eq_some_iff.mp hfit
      rw [← Nat.add_assoc, ← hgrown]
      exact ih grown (draw s).2

/-- The last of some draws is made behind all others. -/
theorem drawFaces_succ (draw : σ → UInt64 × σ) (n : Nat) (s : σ) :
    drawFaces draw (n + 1) s = drawFaces draw n s ++ [(draw ((fun s => (draw s).2)^[n] s)).1] := by
  induction n generalizing s with
  | zero => rfl
  | succ n ih => rw [drawFaces, ih, Function.iterate_succ_apply, drawFaces, List.cons_append]

/-- **A sum that fits has taken all its draws**, one step after the other. -/
theorem sumDraws_snd {draw : σ → UInt64 × σ} {n : Nat} {sum : UInt64} {s : σ} (h : (sumDraws draw n sum s).1 ≠ none) :
    (sumDraws draw n sum s).2 = (fun s => (draw s).2)^[n] s := by
  induction n generalizing sum s with
  | zero => rfl
  | succ n ih =>
    rw [Function.iterate_succ_apply]
    unfold sumDraws at h ⊢
    cases hfit : fit? (sum.toNat + (draw s).1.toNat) with
    | none =>
      simp only [hfit] at h
      exact absurd rfl h
    | some grown =>
      simp only [hfit] at h ⊢
      exact ih h

section

variable {good : σ → Prop} {least most : Nat} {draw : σ → UInt64 × σ}

theorem DrawsWithin.faces (h : DrawsWithin good least most draw) (n : Nat) {s : σ} (hs : good s) :
    ∀ face ∈ drawFaces draw n s, least ≤ face.toNat ∧ face.toNat ≤ most := by
  induction n generalizing s with
  | zero => simp [drawFaces]
  | succ n ih =>
    obtain ⟨hleast, hmost, hgood⟩ := h s hs
    intro face hface
    rcases List.mem_cons.mp hface with rfl | hface
    · exact ⟨hleast, hmost⟩
    · exact ih hgood face hface

/-- Draws leave a good state, also where they stop early. -/
theorem DrawsWithin.sumDraws (h : DrawsWithin good least most draw) (n : Nat) (sum : UInt64) {s : σ} (hs : good s) :
    good (sumDraws draw n sum s).2 := by
  induction n generalizing sum s with
  | zero => exact hs
  | succ n ih =>
    obtain ⟨-, -, hgood⟩ := h s hs
    simp only [TabletopDice.sumDraws]
    cases fit? (sum.toNat + (draw s).1.toNat) with
    | none => exact hgood
    | some grown => exact ih grown hgood

end

/-- A roller shows what its draws show, if it adds them one by one. -/
theorem shows_of_draws [Roller σ] {good : σ → Prop} {least most : Die → Nat} {draw : Die → σ → UInt64 × σ}
    (hroll : ∀ die, DrawsWithin good (least die) (most die) (Roller.roll die))
    (hdraw : ∀ die, DrawsWithin good (least die) (most die) (draw die))
    (hmany : ∀ n die s, Roller.rollMany n die s = sumDraws (draw die) n 0 s) :
    Roller.Shows good least most where
  roll := hroll
  rollMany n die s hs := by
    rw [hmany]
    refine ⟨⟨_, ⟨drawFaces (draw die) n s, length_drawFaces _ n s, (hdraw die).faces n hs, rfl⟩, ?_⟩, ?_⟩
    · rw [sumDraws_fst, UInt64.toNat_zero, Nat.zero_add]
    · exact (hdraw die).sumDraws n 0 hs

/-- **Dice show a total between the bounds of their faces, times their number.** -/
theorem Roller.Shows.draw [Roller σ] {good : σ → Prop} {least most : Die → Nat} (h : Roller.Shows good least most)
    {tray : Tray σ} (hgood : good tray.roller) (dice : Dice) :
    ∃ total, dice.count.toNat * least dice.die ≤ total ∧ total ≤ dice.count.toNat * most dice.die ∧
      (tray.draw dice).1 = fit? total ∧ good (tray.draw dice).2.roller := by
  rw [Tray.draw]
  split
  · rename_i hone
    obtain ⟨hleast, hmost, hgood'⟩ := h.roll dice.die tray.roller hgood
    refine ⟨_, ?_, ?_, (fit?_eq_some_iff.mpr rfl).symm, hgood'⟩
    · simpa [hone] using hleast
    · simpa [hone] using hmost
  · obtain ⟨⟨total, hsum, hfit⟩, hgood'⟩ := h.rollMany dice.count.toNat dice.die tray.roller hgood
    exact ⟨total, hsum.bounds.1, hsum.bounds.2, hfit, hgood'⟩

end

/-! ## Rollers -/

/-- Faces from `1` up to the number of sides. -/
theorem shows_cycle : Roller.Shows (σ := Cycle) (fun _ => True) (fun _ => 1) fun die => die.sides.toNat := by
  have hdraw : ∀ die : Die, DrawsWithin (fun _ : Cycle => True) 1 die.sides.toNat (Roller.roll die) := by
    intro die cycle _
    have hpos := die.sides_pos
    have hlt := Nat.mod_lt (cycle.face.toNat - 1) hpos
    have hsides := die.sides.toNat_lt
    have hface : ((cycle.face.toNat - 1) % die.sides.toNat + 1) < UInt64.size := by
      show _ < 2 ^ 64
      omega
    simp only [Roller.roll, UInt64.toNat_ofNat_of_lt' hface]
    exact ⟨Nat.succ_pos _, hlt, trivial⟩
  exact shows_of_draws hdraw hdraw fun _ _ _ => rfl

/-- The roller that shows the lowest face of every die. -/
theorem shows_lowest : Roller.Shows (· = (⟨1⟩ : Fixed)) (fun _ => 1) fun _ => 1 := by
  have hdraw : ∀ die : Die, DrawsWithin (· = (⟨1⟩ : Fixed)) 1 1 (Roller.roll die) := by
    rintro die _ rfl
    have hone : (1 : UInt64).toNat ≤ die.sides.toNat := die.sides_pos
    have hmin : min (1 : UInt64) die.sides = 1 := if_pos (UInt64.le_iff_toNat_le.mpr hone)
    simp [Roller.roll, hmin]
  exact shows_of_draws hdraw hdraw fun _ _ _ => rfl

/-- The roller that shows the highest face of every die. -/
theorem shows_highest : Roller.Shows (· = (⟨18446744073709551615⟩ : Fixed)) (fun die => die.sides.toNat)
    fun die => die.sides.toNat := by
  have hdraw : ∀ die : Die, DrawsWithin (· = (⟨18446744073709551615⟩ : Fixed)) die.sides.toNat die.sides.toNat
      (Roller.roll die) := by
    rintro die _ rfl
    have hle : die.sides ≤ 18446744073709551615 := UInt64.le_iff_toNat_le.mpr (Nat.le_pred_of_lt die.sides.toNat_lt)
    have hmin : min 18446744073709551615 die.sides = die.sides := by
      by_cases h : 18446744073709551615 ≤ die.sides
      · exact (if_pos h).trans (UInt64.le_antisymm h hle)
      · exact if_neg h
    simp [Roller.roll, hmin]
  exact shows_of_draws hdraw hdraw fun _ _ _ => rfl

/-- A word goes to a side of the die. -/
theorem Die.spread_div_lt (die : Die) (word : UInt64) : die.spread word / UInt64.size < die.sides.toNat :=
  Nat.div_lt_of_lt_mul (Nat.mul_lt_mul_of_pos_right word.toNat_lt die.sides_pos)

/-- The sides are counted from `1`. -/
theorem Die.toNat_faceOf (die : Die) (word : UInt64) :
    (die.faceOf word).toNat = die.spread word / UInt64.size + 1 := by
  have hside := die.spread_div_lt word
  have hsides := die.sides.toNat_lt
  apply UInt64.toNat_ofNat_of_lt'
  show _ < 2 ^ 64
  omega

/-- A word stands for a face of the die. -/
theorem Die.faceOf_bounds (die : Die) (word : UInt64) :
    1 ≤ (die.faceOf word).toNat ∧ (die.faceOf word).toNat ≤ die.sides.toNat := by
  rw [toNat_faceOf]
  exact ⟨Nat.succ_pos _, die.spread_div_lt word⟩

/-- Random words show faces of the die, under any zone. -/
theorem Die.sample_within {γ : Type} [WordSource γ] (die : Die) (zone : Nat) :
    DrawsWithin (fun _ : γ => True) 1 die.sides.toNat (die.sample zone) := by
  intro source _
  rw [Die.sample]
  rcases firstAccepted (die.accepts zone) (WordSource.horizon source) source with ⟨_ | word, rest⟩
  · exact ⟨Nat.le_refl _, die.sides_pos, trivial⟩
  · exact ⟨(die.faceOf_bounds word).1, (die.faceOf_bounds word).2, trivial⟩

/-- **Random words show faces from `1` up to the number of sides**, of a single die and in sums. -/
theorem shows_words {γ : Type} [WordSource γ] :
    Roller.Shows (σ := γ) (fun _ => True) (fun _ => 1) fun die => die.sides.toNat :=
  shows_of_draws (fun die => die.sample_within die.rollZone) (fun die => die.sample_within die.manyZone) fun _ _ _ => rfl

end TabletopDice
