import TabletopDice.Proofs.Totals
import TabletopDice.Proofs.Uniformity

/-!
# Dice rolled one by one

`NdS` is `dS` added `N` times: the dice may be rolled together, or one by one and then added by the machine.

- a chain of additions comes to the checked sum of its operands (`Chain.reckon_of_add`). The chain that single dice leave
  has the faces of the roller as its operands (`run_roll_addedDice`);
- random words are judged by a narrower zone for a single die. A word that passes it passes the wider zone of a sum, too,
  and shows the same face (`Die.sample_of_accepts`).

The main statement is `dice_one_by_one`.
-/

namespace TabletopDice

/-! ## Chains of additions -/

/-- Two numerals have the checked sum of their values. -/
theorem combine_add (l r : Digits) : combine .add l r = checked (l.value + r.value) := by
  rw [combine, Digits.read, Digits.read, checked]
  cases hl : fit? l.value with
  | none =>
    have hlarge := fit?_eq_none_iff.mp hl
    rw [if_neg (by omega)]
    rfl
  | some a =>
    cases hr : fit? r.value with
    | none =>
      have hlarge := fit?_eq_none_iff.mp hr
      rw [if_neg (by omega)]
      rfl
    | some b =>
      rw [← fit?_eq_some_iff.mp hl, ← fit?_eq_some_iff.mp hr]
      rfl

namespace Chain

/-- The sum of the numerals in a chain. -/
def sum : Chain Signed → Nat
  | single s => s.digits.value
  | snoc front _ s => front.sum + s.digits.value

/-- A sweep for an operator that does not occur changes nothing. -/
theorem sweep_of_not_mem {op : Operator} {c : Chain Signed} (h : op ∉ c.ops) : c.sweep op = .ok c := by
  induction c with
  | single s => rfl
  | snoc front o s ih =>
    have hfront : op ∉ front.ops := fun hmem => h (List.mem_append_left _ hmem)
    have ho : o ≠ op := fun he => h (List.mem_append_right _ (List.mem_singleton.mpr he.symm))
    rw [sweep, ih hfront]
    exact if_neg ho

/-- The sweep for `+` over additions leaves their sum. If it stops, the sum is too large. -/
theorem sweep_add {c : Chain Signed} (hplain : c.Plain) (hadd : ∀ op ∈ c.ops, op = .add) :
    (∃ d : Digits, c.sweep .add = .ok (single ⟨0, d⟩) ∧ d.value = c.sum) ∨
      (c.sweep .add = .error .overflow ∧ UInt64.size ≤ c.sum) := by
  induction c with
  | single s =>
    obtain ⟨signs, digits⟩ := s
    obtain rfl : signs = 0 := hplain
    exact Or.inl ⟨digits, rfl, rfl⟩
  | snoc front op s ih =>
    have hop : op = .add := hadd op (List.mem_append_right _ (List.mem_singleton.mpr rfl))
    rw [sweep, sum]
    rcases ih hplain.1 (fun o ho => hadd o (List.mem_append_left _ ho)) with ⟨d, hfront, hsum⟩ | ⟨hfront, hsum⟩
    · rw [hfront, ← hsum]
      simp only [bind, Except.bind, if_pos hop, last, combine_add]
      by_cases hfits : d.value + s.digits.value < UInt64.size
      · rw [checked, if_pos hfits]
        refine Or.inl ⟨.ofNat (d.value + s.digits.value), rfl, ?_⟩
        rw [Digits.value_ofNat]
      · rw [checked, if_neg hfits]
        exact Or.inr ⟨rfl, Nat.not_lt.mp hfits⟩
    · rw [hfront]
      exact Or.inr ⟨rfl, by omega⟩

/-- **A chain of additions comes to the sum of its operands**, or overflows if that does not fit in 64 bits. -/
theorem reckon_of_add {c : Chain Signed} (hplain : c.Plain) (hadd : ∀ op ∈ c.ops, op = .add) :
    c.reckon = (fit? c.sum).elim (.error .overflow) .ok := by
  have hmultiply : c.sweep .multiply = .ok c := sweep_of_not_mem fun h => by cases hadd _ h
  have hdivide : c.sweep .divide = .ok c := sweep_of_not_mem fun h => by cases hadd _ h
  have hreckon : c.reckon = c.sweep .add >>= fun swept => swept.sweep .subtract >>= total := by
    rw [reckon, hmultiply]
    simp only [bind, Except.bind, hdivide]
  rw [hreckon]
  rcases sweep_add hplain hadd with ⟨d, hsweep, hsum⟩ | ⟨hsweep, hlarge⟩
  · rw [hsweep, ← hsum]
    show d.read = _
    rw [Digits.read]
    cases fit? d.value <;> rfl
  · rw [hsweep, fit?_eq_none_iff.mpr hlarge]
    rfl

end Chain

/-! ## Dice in words -/

/-- One die and so many others, all with the same sides, and `+` between them. -/
def addedDice {α : Type} (sides : α) : Nat → Chain (Term α)
  | 0 => .single (.die sides)
  | n + 1 => (addedDice sides n).snoc .add (.die sides)

/-- The dice one by one, as single dice with `+` between them. -/
def Dice.spelledOut (dice : Dice) : Text :=
  ['+'].intercalate (List.replicate dice.count.toNat ('d' :: Numeral.write dice.die.sides.toNat))

theorem intercalate_replicate_succ (c : Char) (t : Text) (n : Nat) :
    [c].intercalate (List.replicate (n + 2) t) = [c].intercalate (List.replicate (n + 1) t) ++ c :: t := by
  have hcons : ∀ n, [c].intercalate (List.replicate (n + 2) t) =
      t ++ c :: [c].intercalate (List.replicate (n + 1) t) := by
    intro n
    simp [List.replicate_succ, List.intercalate]
  induction n with
  | zero => simp [List.intercalate]
  | succ n ih =>
    calc [c].intercalate (List.replicate (n + 3) t)
        = t ++ c :: [c].intercalate (List.replicate (n + 2) t) := hcons (n + 1)
      _ = t ++ c :: ([c].intercalate (List.replicate (n + 1) t) ++ c :: t) := by rw [ih]
      _ = [c].intercalate (List.replicate (n + 2) t) ++ c :: t := by rw [hcons n]; simp

theorem text_addedDice (sides : Digits) (n : Nat) : (addedDice (Atom.numeral sides) n).text =
    ['+'].intercalate (List.replicate (n + 1) ('d' :: sides.text)) := by
  induction n with
  | zero => simp [addedDice, Chain.text, Term.text, Atom.text, List.intercalate]
  | succ n ih =>
    rw [intercalate_replicate_succ, ← ih, addedDice, Chain.text, Term.text, Atom.text]
    rfl

section

variable {σ : Type} [Roller σ]

theorem settle_addedDice (sides : Digits) (n : Nat) :
    ((addedDice (Atom.numeral sides) n).settle : Play σ _) = pure (addedDice sides n) := by
  induction n with
  | zero => simp [addedDice, Chain.settle, Term.settle, Atom.settle]
  | succ n ih => simp [addedDice, Chain.settle, Term.settle, Atom.settle, ih]

/-- The numerals of dice name these dice. -/
theorem diceOf_write (dice : Dice) (hcount : 1 ≤ dice.count.toNat) :
    diceOf (some (.ofNat dice.count.toNat)) (.ofNat dice.die.sides.toNat) = .ok dice := by
  have hne : dice.count ≠ 0 := by
    intro h
    rw [h] at hcount
    exact absurd hcount (by decide)
  have hread : countOf (some (.ofNat dice.count.toNat)) = .ok dice.count := by
    rw [countOf, Digits.read_ofNat]
    exact congrArg Except.ok (if_neg hne)
  rw [diceOf_of_read hread (Digits.read_ofNat _), dif_pos dice.die.sides_pos]

/-- **The text `NdS` is evaluated by one roll**, events apart. -/
theorem mute_evaluate_write (dice : Dice) (hcount : 1 ≤ dice.count.toNat) :
    (evaluate dice.write : Play σ UInt64).mute = Play.reset >>= fun _ => Play.roll dice := by
  let count : Digits := .ofNat dice.count.toNat
  let sides : Digits := .ofNat dice.die.sides.toNat
  let e : Expression := .single (.dice (.atom (.numeral count)) (.numeral sides))
  have htext : e.text = dice.write := by
    simp [e, count, sides, Chain.text, Term.text, Atom.text, Dice.write, Digits.ofNat]
  have hsettle : (e.settle : Play σ _) = pure (.single (.dice (.atom count) sides)) := by
    simp [e, Chain.settle, Term.settle, Atom.settle]
  have hreckon : ∀ total : UInt64, (Chain.single ⟨0, .ofNat total.toNat⟩).reckon = .ok total := Digits.read_ofNat
  have hthrow : (throwDice (some count) sides : Play σ UInt64) = Play.roll dice := by
    rw [throwDice, diceOf_write dice hcount, Play.ofExcept_ok, pure_bind]
  rw [← htext, mute_evaluate_text, Expression.evaluate, hsettle]
  simp only [Chain.value, Chain.roll, Term.roll, pure_bind, bind_assoc, hthrow, hreckon, Play.ofExcept_ok, bind_pure]

/-! ## Single dice -/

/-- **A single die takes one step of the roller**, and its face stands in the place of its text. -/
theorem run_roll_die (die : Die) (s : σ) {booked grown : UInt64} (h : grown.toNat = booked.toNat + 1) :
    ((Term.die (.ofNat die.sides.toNat)).roll : Play σ Digits).run ⟨s, booked, none⟩ =
      ⟨.ok (.ofNat (Roller.roll die s).1.toNat), ⟨(Roller.roll die s).2, grown, none⟩, []⟩ := by
  have hcount : countOf none = .ok 1 := rfl
  have hdice : diceOf none (.ofNat die.sides.toNat) = .ok ⟨1, die⟩ := by
    rw [diceOf_of_read hcount (Digits.read_ofNat _), dif_pos die.sides_pos]
  have hfit : fit? (booked.toNat + (1 : UInt64).toNat) = some grown := fit?_eq_some_iff.mpr h
  have hbook : (⟨s, booked, none⟩ : Tray σ).book 1 = some ⟨s, grown, none⟩ := by
    rw [Tray.book_of_free rfl, hfit]
    rfl
  rw [Term.roll, throwDice, hdice, Play.ofExcept_ok, pure_bind, Play.run_bind, Play.run_roll, Tray.roll, hbook]
  rfl

/-- **Single dice leave the faces of the roller**, in a chain of additions. -/
theorem run_roll_addedDice (die : Die) (s : σ) {n : Nat} {booked : UInt64} (hbooked : booked.toNat = n + 1) :
    ∃ c : Chain Signed, ((addedDice (.ofNat die.sides.toNat) n).roll : Play σ _).run ⟨s, 0, none⟩ =
        ⟨.ok c, ⟨(fun s => (Roller.roll die s).2)^[n + 1] s, booked, none⟩, []⟩ ∧
      c.Plain ∧ (∀ op ∈ c.ops, op = .add) ∧
      c.sum = ((drawFaces (Roller.roll die) (n + 1) s).map UInt64.toNat).sum := by
  induction n generalizing booked with
  | zero =>
    have hbooked : booked.toNat = (0 : UInt64).toNat + 1 := hbooked
    refine ⟨.single ⟨0, .ofNat (Roller.roll die s).1.toNat⟩, ?_, rfl, by simp [Chain.ops], ?_⟩
    · rw [addedDice, Chain.roll, Play.run_bind, run_roll_die die s hbooked]
      rfl
    · simp [Chain.sum, drawFaces]
  | succ n ih =>
    have hfront : (UInt64.ofNat (n + 1)).toNat = n + 1 := by
      have hlt := booked.toNat_lt
      apply UInt64.toNat_ofNat_of_lt'
      show n + 1 < 2 ^ 64
      omega
    obtain ⟨c, hrun, hplain, hadd, hsum⟩ := ih hfront
    let last := Roller.roll die ((fun s => (Roller.roll die s).2)^[n + 1] s)
    refine ⟨c.snoc .add ⟨0, .ofNat last.1.toNat⟩, ?_, ⟨hplain, rfl⟩, ?_, ?_⟩
    · have hgrown : booked.toNat = (UInt64.ofNat (n + 1)).toNat + 1 := by rw [hfront, hbooked]
      have hlast := run_roll_die die ((fun s => (Roller.roll die s).2)^[n + 1] s) hgrown
      rw [addedDice, Chain.roll, Play.run_bind, hrun, Function.iterate_succ_apply' _ (n + 1)]
      simp only [Play.run_bind, hlast]
      rfl
    · intro op hop
      rcases List.mem_append.mp hop with hop | hop
      · exact hadd op hop
      · exact List.mem_singleton.mp hop
    · rw [drawFaces_succ, List.map_append, List.sum_append, ← hsum, Chain.sum, Digits.value_ofNat]
      simp [last]

/-- **The text `dS+…+dS` is evaluated by single rolls**, whose faces are added. -/
theorem run_evaluate_spelledOut (dice : Dice) (hcount : 1 ≤ dice.count.toNat) (s : σ) (earlier : UInt64) :
    (evaluate dice.spelledOut : Play σ UInt64).mute.run ⟨s, earlier, none⟩ =
      ⟨(fit? ((drawFaces (Roller.roll dice.die) dice.count.toNat s).map UInt64.toNat).sum).elim (.error .overflow) .ok,
        ⟨(fun s => (Roller.roll dice.die s).2)^[dice.count.toNat] s, dice.count, none⟩, []⟩ := by
  obtain ⟨n, hn⟩ : ∃ n, dice.count.toNat = n + 1 := Nat.exists_eq_add_of_le' hcount
  let sides : Digits := .ofNat dice.die.sides.toNat
  have htext : (addedDice (Atom.numeral sides) n).text = dice.spelledOut := by
    rw [text_addedDice, Dice.spelledOut, hn]
    rfl
  obtain ⟨c, hrun, hplain, hadd, hsum⟩ := run_roll_addedDice dice.die s hn
  rw [← htext, mute_evaluate_text, Expression.evaluate, settle_addedDice, pure_bind, Play.run_bind, Play.run_reset]
  show (((addedDice sides n).value : Play σ UInt64).run ⟨s, 0, none⟩).after [] = _
  rw [Chain.value, Play.run_bind, hrun]
  simp only [Play.run_ofExcept, Chain.reckon_of_add hplain hadd, hsum, hn]
  rfl

/-- With an unbounded tray, dice come to the same if they are rolled one by one: the same total or fault, as many dice
booked, and, unless the sum is too large, the same state of the roller. -/
structure Dice.SameOneByOne (dice : Dice) (s : σ) (earlier : UInt64) : Prop where
  result : ((evaluate dice.write).run ⟨s, earlier, none⟩).result =
    ((evaluate dice.spelledOut).run ⟨s, earlier, none⟩).result
  booked : ((evaluate dice.write).run ⟨s, earlier, none⟩).tray.booked =
    ((evaluate dice.spelledOut).run ⟨s, earlier, none⟩).tray.booked
  roller : ((evaluate dice.write).run ⟨s, earlier, none⟩).result ≠ .error .overflow →
    ((evaluate dice.write).run ⟨s, earlier, none⟩).tray.roller =
      ((evaluate dice.spelledOut).run ⟨s, earlier, none⟩).tray.roller
  /-- All dice are booked, and their total is the checked sum of the faces of single rolls. -/
  total : ((evaluate dice.write).run ⟨s, earlier, none⟩).tray.booked = dice.count ∧
    ((evaluate dice.write).run ⟨s, earlier, none⟩).result =
      (fit? ((drawFaces (Roller.roll dice.die) dice.count.toNat s).map UInt64.toNat).sum).elim (.error .overflow) .ok

/-- Dice that are rolled together by the draws of single rolls come to the same one by one. -/
theorem Dice.sameOneByOne {dice : Dice} (hcount : 1 ≤ dice.count.toNat) {s : σ}
    (hmany : Roller.rollMany dice.count.toNat dice.die s = sumDraws (Roller.roll dice.die) dice.count.toNat 0 s)
    (earlier : UInt64) : dice.SameOneByOne s earlier := by
  have htotal : (dice.faces s).1 = fit? ((drawFaces (Roller.roll dice.die) dice.count.toNat s).map UInt64.toNat).sum :=
    faces_fst (fun _ => rfl) fun _ => hmany
  have hroller : (dice.faces s).1 ≠ none →
      (dice.faces s).2 = (fun s => (Roller.roll dice.die s).2)^[dice.count.toNat] s := by
    intro hfits
    by_cases hone : dice.count = 1
    · have hnat : dice.count.toNat = 1 := by rw [hone]; rfl
      rw [hnat]
      simp [faces, Tray.draw, hone]
    · have hfaces : dice.faces s = sumDraws (Roller.roll dice.die) dice.count.toNat 0 s := by
        rw [← hmany]
        simp [faces, Tray.draw, hone]
      rw [hfaces] at hfits ⊢
      exact sumDraws_snd hfits
  have htogether : (evaluate dice.write : Play σ UInt64).mute.run ⟨s, earlier, none⟩ =
      ⟨(dice.faces s).1.elim (.error .overflow) .ok, ⟨(dice.faces s).2, dice.count, none⟩, []⟩ := by
    have hbook : (⟨s, 0, none⟩ : Tray σ).book dice.count = some ⟨s, dice.count, none⟩ := by
      have hsum : dice.count.toNat = (0 : UInt64).toNat + dice.count.toNat := (Nat.zero_add _).symm
      rw [Tray.book_of_free rfl, fit?_eq_some_iff.mpr hsum]
      rfl
    rw [mute_evaluate_write dice hcount, Play.run_bind, Play.run_reset]
    show ((Play.roll dice : Play σ UInt64).run ⟨s, 0, none⟩).after [] = _
    rw [Play.run_roll, Tray.roll_of_book hbook]
    rfl
  have hapart := run_evaluate_spelledOut dice hcount s earlier
  rw [Play.run_mute, Outcome.mk.injEq] at htogether hapart
  obtain ⟨hresult, htray, -⟩ := htogether
  obtain ⟨hresult', htray', -⟩ := hapart
  constructor
  · rw [hresult, hresult', htotal]
  · rw [htray, htray']
  · intro hfits
    rw [htray, htray']
    apply hroller
    intro hnone
    rw [hresult, hnone] at hfits
    exact hfits rfl
  · rw [htray, hresult, htotal]
    exact ⟨rfl, rfl⟩

end

/-! ## Random words -/

namespace Die

/-- The zone of a single roll is the narrower one. -/
theorem rollZone_le_manyZone (die : Die) : die.rollZone ≤ die.manyZone := by
  have hroll := die.rollZone_succ
  have hmany := die.manyZone_succ
  have hlt := die.sides_mul_two_pow_lt
  have hle : 2 ^ die.leadingZeros ≤ UInt64.size / die.sides.toNat := by
    rw [Nat.le_div_iff_mul_le die.sides_pos, Nat.mul_comm]
    omega
  have hsides : die.sides.toNat * 2 ^ die.leadingZeros ≤ die.sides.toNat * (UInt64.size / die.sides.toNat) :=
    Nat.mul_le_mul_left _ hle
  omega

/-- A word that a single roll accepts is accepted for the dice of a sum. -/
theorem accepts_manyZone {die : Die} {word : UInt64} (h : die.accepts die.rollZone word) :
    die.accepts die.manyZone word := by
  have hle := die.rollZone_le_manyZone
  unfold accepts at h ⊢
  rw [decide_eq_true_eq] at h ⊢
  omega

section

variable {γ : Type} [WordSource γ]

/-- The words that a source gives next are all accepted for a single roll. -/
def AcceptsNext (die : Die) (n : Nat) (source : γ) : Prop :=
  ∀ word ∈ drawFaces WordSource.next n source, die.accepts die.rollZone word

/-- The next word is the one that is taken if it is accepted, unless the source is not looked at. -/
theorem sample_of_accepts {die : Die} {zone : Nat} {source : γ} (h : die.accepts zone (WordSource.next source).1) :
    die.sample zone source =
      if WordSource.horizon source = 0 then (1, source)
      else (die.faceOf (WordSource.next source).1, (WordSource.next source).2) := by
  unfold sample
  cases WordSource.horizon source with
  | zero => rfl
  | succ n => simp [firstAccepted, h]

/-- **Where the next words are all accepted for single rolls, the dice of a sum take the same words.** -/
theorem sumDraws_sample {die : Die} {n : Nat} {source : γ} (h : die.AcceptsNext n source) (sum : UInt64) :
    sumDraws (die.sample die.manyZone) n sum source = sumDraws (die.sample die.rollZone) n sum source := by
  induction n generalizing source sum with
  | zero => rfl
  | succ n ih =>
    have hnext : die.accepts die.rollZone (WordSource.next source).1 := h _ List.mem_cons_self
    have hsame : die.sample die.manyZone source = die.sample die.rollZone source := by
      rw [sample_of_accepts (accepts_manyZone hnext), sample_of_accepts hnext]
    have hrest : die.AcceptsNext n (die.sample die.rollZone source).2 := by
      rw [sample_of_accepts hnext]
      split
      · -- the source has not been looked at, and its first words are accepted
        rw [AcceptsNext, drawFaces_succ] at h
        exact fun word hword => h word (List.mem_append_left _ hword)
      · exact fun word hword => h word (List.mem_cons_of_mem _ hword)
    simp only [sumDraws, hsame]
    cases fit? (sum.toNat + (die.sample die.rollZone source).1.toNat) with
    | none => rfl
    | some grown => exact ih hrest grown

end

end Die

/-- **`NdS` is `dS` added `N` times.** On an unbounded tray both texts have the same result, book the same dice, and leave
the roller in the same state unless the sum is too large. This holds for each roller that adds single rolls, and for
random words as long as single rolls accept all words that the dice are to see. -/
theorem dice_one_by_one :
    (∀ (σ : Type) [Roller σ], SumsRolls σ → ∀ dice : Dice, 1 ≤ dice.count.toNat → ∀ (s : σ) (earlier : UInt64),
      dice.SameOneByOne s earlier) ∧
    ∀ (γ : Type) [WordSource γ] (dice : Dice), 1 ≤ dice.count.toNat → ∀ source : γ,
      (∀ word ∈ drawFaces WordSource.next dice.count.toNat source, dice.die.accepts dice.die.rollZone word) →
      ∀ earlier, dice.SameOneByOne source earlier := by
  constructor
  · intro σ _ hsums dice hcount s earlier
    exact Dice.sameOneByOne hcount (hsums _ _ _) earlier
  · intro γ _ dice hcount source haccepts earlier
    apply Dice.sameOneByOne hcount
    exact Die.sumDraws_sample haccepts 0

/-- Three dice of a cycle, and two dice from words, behind earlier dice. -/
theorem dice_one_by_one_three :
    let dice : Dice := ⟨3, ⟨6, by decide⟩⟩
    let pair : Dice := ⟨2, ⟨8, by decide⟩⟩
    let script : Script := ⟨[7000000000000000000, 7]⟩
    SumsRolls Cycle ∧ 1 ≤ dice.count.toNat ∧ dice.SameOneByOne (⟨[4, 2, 6], 0⟩ : Cycle) 5 ∧ 1 ≤ pair.count.toNat ∧
      (∀ word ∈ drawFaces WordSource.next pair.count.toNat script, pair.die.accepts pair.die.rollZone word) ∧
      pair.SameOneByOne script 0 := by
  intro dice pair script
  have hsums : SumsRolls Cycle := fun _ _ _ => rfl
  have hcount : 1 ≤ dice.count.toNat := by decide
  have hcount' : 1 ≤ pair.count.toNat := by decide
  have hwords : drawFaces WordSource.next pair.count.toNat script = [7000000000000000000, 7] := rfl
  have hzone : pair.die.rollZone = 9223372036854775807 := by decide
  have haccepts : ∀ word ∈ drawFaces WordSource.next pair.count.toNat script,
      pair.die.accepts pair.die.rollZone word := by
    rw [hwords, hzone, List.forall_mem_cons, List.forall_mem_singleton]
    decide
  obtain ⟨hrolls, hdrawn⟩ := dice_one_by_one
  refine ⟨hsums, hcount, ?_, hcount', haccepts, ?_⟩
  · exact hrolls Cycle hsums dice hcount _ 5
  · exact hdrawn Script pair hcount' script haccepts 0

end TabletopDice
