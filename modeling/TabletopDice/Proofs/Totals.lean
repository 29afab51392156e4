import TabletopDice.Proofs.Bookings
import TabletopDice.Proofs.Faces

/-!
# Totals of dice are exact

A roll of dice comes to the sum of their faces in the natural numbers, or to an overflow if that sum does not fit in 64
bits.

- The faces are those that the roller would give one after the other (`drawFaces`), also those behind the face with which
  the sum becomes too large. A single die is no other case: its face is the sum of one face (`Dice.faces_fst`);
- `Tray.RollsSum` says what a roll comes to by its faces, and holds as soon as the dice are booked (`Tray.rollsSum`);
- it is true of rollers that add single rolls, and of random words, where a single die and the dice of a sum look for
  words in different zones (`Dice.zone`, `roll_sums_faces`).
-/

namespace TabletopDice

section

variable {σ : Type} [Roller σ]

/-- A roll of dice comes to the sum of these faces. -/
structure Tray.RollsSum (tray : Tray σ) (dice : Dice) (faces : List UInt64) : Prop where
  /-- There is a face for each of the dice. -/
  length : faces.length = dice.count.toNat
  /-- The total is the sum of the faces, if that fits. -/
  total : (faces.map UInt64.toNat).sum < UInt64.size →
    ∃ total, (tray.roll dice).1 = .ok total ∧ total.toNat = (faces.map UInt64.toNat).sum
  /-- The total overflows, if it does not. -/
  overflow : UInt64.size ≤ (faces.map UInt64.toNat).sum → (tray.roll dice).1 = .error .overflow
  /-- A total is no less than the number of dice, and no more than that number times their sides. -/
  bounds : ∀ total, (tray.roll dice).1 = .ok total →
    dice.count.toNat ≤ total.toNat ∧ total.toNat ≤ dice.count.toNat * dice.die.sides.toNat
  /-- If the highest total fits, none overflows. -/
  fits : dice.count.toNat * dice.die.sides.toNat < UInt64.size → (tray.roll dice).1 ≠ .error .overflow

/-- **Dice show the checked sum of the faces that are drawn for them**, be it one die or any other number. -/
theorem Dice.faces_fst {dice : Dice} {draw : σ → UInt64 × σ} {s : σ}
    (hone : dice.count = 1 → Roller.roll dice.die s = draw s)
    (hmany : dice.count ≠ 1 → Roller.rollMany dice.count.toNat dice.die s = sumDraws draw dice.count.toNat 0 s) :
    (dice.faces s).1 = fit? ((drawFaces draw dice.count.toNat s).map UInt64.toNat).sum := by
  by_cases hcount : dice.count = 1
  · have hsingle : (dice.faces s).1 = some (draw s).1 := by
      rw [← hone hcount]
      simp [faces, Tray.draw, hcount]
    have hnat : dice.count.toNat = 1 := by rw [hcount]; rfl
    rw [hsingle, hnat]
    refine (fit?_eq_some_iff.mpr ?_).symm
    simp [drawFaces]
  · have hsum : (dice.faces s).1 = (sumDraws draw dice.count.toNat 0 s).1 := by
      rw [← hmany hcount]
      simp [faces, Tray.draw, hcount]
    rw [hsum, sumDraws_fst, UInt64.toNat_zero, Nat.zero_add]

/-- **Dice that can be booked come to the sum of their faces**, if each of these is a face of the die. -/
theorem Tray.rollsSum {tray : Tray σ} {dice : Dice} (hadmits : tray.booked.toNat + dice.count.toNat ≤ tray.limit)
    {faces : List UInt64} (hlength : faces.length = dice.count.toNat)
    (hfaces : ∀ face ∈ faces, 1 ≤ face.toNat ∧ face.toNat ≤ dice.die.sides.toNat)
    (hsum : (dice.faces tray.roller).1 = fit? (faces.map UInt64.toNat).sum) : tray.RollsSum dice faces := by
  obtain ⟨booked, hbook⟩ : ∃ booked, tray.book dice.count = some booked := by
    refine Option.ne_none_iff_exists'.mp fun hnone => ?_
    have hexceeds := book_eq_none_iff.mp hnone
    omega
  obtain ⟨hroller, -, -, -⟩ := book_eq_some hbook
  have hroll : (tray.roll dice).1 = (fit? (faces.map UInt64.toNat).sum).elim (.error .overflow) .ok := by
    rw [roll_of_book hbook, hroller, hsum]
  obtain ⟨hleast, hmost⟩ : dice.count.toNat * 1 ≤ (faces.map UInt64.toNat).sum ∧
      (faces.map UInt64.toNat).sum ≤ dice.count.toNat * dice.die.sides.toNat :=
    IsSumOf.bounds ⟨faces, hlength, hfaces, rfl⟩
  rw [Nat.mul_one] at hleast
  cases hfit : fit? (faces.map UInt64.toNat).sum with
  | none =>
    have hlarge := fit?_eq_none_iff.mp hfit
    rw [hfit] at hroll
    refine ⟨hlength, fun hlt => ?_, fun _ => hroll, fun total htotal => ?_, fun hlt => ?_⟩
    · omega
    · rw [hroll] at htotal
      cases htotal
    · omega
  | some total =>
    have htotal := fit?_eq_some_iff.mp hfit
    have hlt := total.toNat_lt
    rw [hfit] at hroll
    refine ⟨hlength, fun _ => ⟨total, hroll, htotal⟩, fun hge => ?_, fun total' htotal' => ?_, fun _ hfault => ?_⟩
    · have hsize : UInt64.size = 2 ^ 64 := rfl
      omega
    · rw [hroll] at htotal'
      obtain rfl := Except.ok.inj htotal'
      omega
    · rw [hroll] at hfault
      cases hfault

end

/-- The zone of the words that dice look for: a single die has one of its own. -/
def Dice.zone (dice : Dice) : Nat := if dice.count = 1 then dice.die.rollZone else dice.die.manyZone

/-- **A roll of dice that can be booked comes to the exact sum of their faces**, or overflows if that does not fit in 64
bits: with each roller that adds single rolls, on trays where it shows faces of the die, and with random words. -/
theorem roll_sums_faces :
    (∀ (σ : Type) [Roller σ], SumsRolls σ → ∀ (tray : Tray σ) (dice : Dice),
      tray.booked.toNat + dice.count.toNat ≤ tray.limit →
      (∀ face ∈ drawFaces (Roller.roll dice.die) dice.count.toNat tray.roller,
        1 ≤ face.toNat ∧ face.toNat ≤ dice.die.sides.toNat) →
      tray.RollsSum dice (drawFaces (Roller.roll dice.die) dice.count.toNat tray.roller)) ∧
    ∀ (γ : Type) [WordSource γ] (tray : Tray γ) (dice : Dice),
      tray.booked.toNat + dice.count.toNat ≤ tray.limit →
      tray.RollsSum dice (drawFaces (dice.die.sample dice.zone) dice.count.toNat tray.roller) := by
  constructor
  · intro σ _ hsums tray dice hadmits hfaces
    refine Tray.rollsSum hadmits (length_drawFaces _ _ _) hfaces (Dice.faces_fst ?_ ?_)
    · exact fun _ => rfl
    · exact fun _ => hsums _ _ _
  · intro γ _ tray dice hadmits
    have hwithin := (dice.die.sample_within (γ := γ) dice.zone).faces dice.count.toNat (s := tray.roller) trivial
    refine Tray.rollsSum hadmits (length_drawFaces _ _ _) hwithin (Dice.faces_fst ?_ ?_)
    · intro hone
      rw [Dice.zone, if_pos hone]
      rfl
    · intro hmany
      rw [Dice.zone, if_neg hmany]
      rfl

/-- Three dice show `4`, `2` and `6`, and two dice from a word show `4` and, behind it, `1`. -/
theorem roll_sums_faces_cycle :
    let tray : Tray Cycle := ⟨⟨[4, 2, 6], 0⟩, 0, some 3⟩
    let script : Tray Script := ⟨⟨[9000000000000000000]⟩, 0, none⟩
    SumsRolls Cycle ∧ tray.booked.toNat + (3 : UInt64).toNat ≤ tray.limit ∧
    tray.RollsSum ⟨3, ⟨6, by decide⟩⟩ [4, 2, 6] ∧
    script.booked.toNat + (2 : UInt64).toNat ≤ script.limit ∧ script.RollsSum ⟨2, ⟨8, by decide⟩⟩ [4, 1] := by
  intro tray script
  have hsums : SumsRolls Cycle := fun _ _ _ => rfl
  have hadmits : tray.booked.toNat + (3 : UInt64).toNat ≤ tray.limit := by decide
  have hadmits' : script.booked.toNat + (2 : UInt64).toNat ≤ script.limit := by decide
  have hdrawn : drawFaces (Roller.roll ⟨6, by decide⟩) 3 tray.roller = [4, 2, 6] := rfl
  have hfaces : ∀ face ∈ drawFaces (Roller.roll ⟨6, by decide⟩) 3 tray.roller,
      1 ≤ face.toNat ∧ face.toNat ≤ (6 : UInt64).toNat := by
    rw [hdrawn]
    simp
  obtain ⟨hrolls, hwords⟩ := roll_sums_faces
  refine ⟨hsums, hadmits, ?_, hadmits', ?_⟩
  · exact hrolls Cycle hsums tray ⟨3, ⟨6, by decide⟩⟩ hadmits hfaces
  · exact hwords Script script ⟨2, ⟨8, by decide⟩⟩ hadmits'

end TabletopDice
