import TabletopDice.Proofs.Expression
import TabletopDice.Proofs.Extremes

/-!
# The range of an expression

An expression in which nothing is divided by dice, and no dice are subtracted, has its lowest total with the lowest
faces and its highest total with the highest ones.

- `Held` are the operators behind which an operand belongs to a divisor or a subtrahend. In a `Chain.Steady` expression
  no die stands there, so what stands there is the same in all runs (`Chain.settle_of_not_hasDie`);
- chains are `Aligned` if they have the same operators and related operands, the same ones behind held operators. A
  sweep leaves aligned chains aligned (`Chain.Aligned.sweep`), so they are reckoned between one another
  (`Chain.Aligned.reckon`);
- dice are rolled between one another (`Chain.Aligned.between_roll`), groups are settled between one another
  (`Chain.between_settle`), and so expressions are evaluated between their extremes (`evaluate_between_extremes`).
-/

namespace TabletopDice

/-! ## Divisors and subtrahends -/

/-- What stands behind these operators belongs to the right side of an `op`: between them stand only operators that are
tried earlier. -/
def RightOf (op : Operator) (ops : List Operator) : Prop :=
  ∃ front rest, ops = front ++ op :: rest ∧ ∀ o ∈ rest, (Rule.binary o).rank < (Rule.binary op).rank

/-- What stands behind these operators belongs to a divisor or a subtrahend. -/
def Held (ops : List Operator) : Prop := RightOf .divide ops ∨ RightOf .subtract ops

theorem RightOf.mem {op : Operator} {ops : List Operator} (h : RightOf op ops) : op ∈ ops := by
  obtain ⟨front, rest, rfl, -⟩ := h
  simp

theorem not_held_nil : ¬ Held [] := by
  rintro (h | h) <;> exact absurd h.mem List.not_mem_nil

theorem rightOf_concat (op : Operator) (ops : List Operator) : RightOf op (ops ++ [op]) :=
  ⟨ops, [], rfl, by simp⟩

theorem rightOf_concat_iff {op o : Operator} (hne : o ≠ op) {ops : List Operator} :
    RightOf op (ops ++ [o]) ↔ (Rule.binary o).rank < (Rule.binary op).rank ∧ RightOf op ops := by
  constructor
  · rintro ⟨front, rest, heq, hrest⟩
    rcases List.eq_nil_or_concat rest with rfl | ⟨rest, last, rfl⟩
    · obtain ⟨-, hlast⟩ := List.append_inj' heq rfl
      exact absurd (List.singleton_inj.mp hlast) hne
    · rw [List.concat_eq_append, ← List.cons_append, ← List.append_assoc] at heq
      obtain ⟨rfl, hlast⟩ := List.append_inj' heq rfl
      obtain rfl := List.singleton_inj.mp hlast
      exact ⟨hrest o (by simp), front, rest, rfl, fun o' ho' => hrest o' (by simp [ho'])⟩
  · rintro ⟨hrank, front, rest, rfl, hrest⟩
    refine ⟨front, rest ++ [o], by simp, fun o' ho' => ?_⟩
    rcases List.mem_append.mp ho' with ho' | ho'
    · exact hrest o' ho'
    · obtain rfl := List.mem_singleton.mp ho'
      exact hrank

/-- A sweep holds no operand that was not held before. -/
theorem RightOf.of_filter {op r : Operator} {ops : List Operator}
    (hfrom : ∀ o ∈ ops, (Rule.binary op).rank ≤ (Rule.binary o).rank) (h : RightOf r (ops.filter (· ≠ op))) :
    RightOf r ops := by
  obtain ⟨front, rest, heq, hrest⟩ := h
  obtain ⟨u, v, rfl, rfl, hv⟩ := List.filter_eq_append_iff.mp heq
  obtain ⟨v, w, rfl, -, hr, rfl⟩ := List.filter_eq_cons_iff.mp hv
  have hne : op ≠ r := fun he => by rw [he] at hr; simp at hr
  have hrank : (Rule.binary op).rank < (Rule.binary r).rank :=
    Rule.rank_lt_of_ne (hfrom r (by simp)) fun he => hne (Rule.binary.inj he)
  refine ⟨u ++ v, w, by simp, fun o ho => ?_⟩
  by_cases hop : o = op
  · rw [hop]
    exact hrank
  · exact hrest o (List.mem_filter.mpr ⟨ho, by simpa using hop⟩)

/-- What is held behind other operators is held behind one that is tried earlier, too. -/
theorem Held.concat {op : Operator} {ops : List Operator}
    (hafter : ∀ o ∈ ops, (Rule.binary op).rank < (Rule.binary o).rank) (h : Held ops) : Held (ops ++ [op]) := by
  have hright : ∀ r, RightOf r ops → RightOf r (ops ++ [op]) := by
    intro r hr
    have hrank := hafter r hr.mem
    exact (rightOf_concat_iff (by rintro rfl; exact Nat.lt_irrefl _ hrank)).mpr ⟨hrank, hr⟩
  exact h.imp (hright _) (hright _)

theorem Held.of_concat {op : Operator} {ops ops' : List Operator} (hops : ∀ r, RightOf r ops → RightOf r ops')
    (h : Held (ops ++ [op])) : Held (ops' ++ [op]) := by
  have hright : ∀ r, RightOf r (ops ++ [op]) → RightOf r (ops' ++ [op]) := by
    intro r hr
    by_cases hop : op = r
    · rw [hop]
      exact rightOf_concat r ops'
    · obtain ⟨hrank, hr⟩ := (rightOf_concat_iff hop).mp hr
      exact (rightOf_concat_iff hop).mpr ⟨hrank, hops r hr⟩
  exact h.imp (hright _) (hright _)

/-! ## Aligned terms and chains -/

/-- Three terms of one form with related operands. -/
inductive Term.Aligned {α : Type} (rel : α → α → α → Prop) : Term α → Term α → Term α → Prop
  | atom {a b c : α} (h : rel a b c) : Aligned rel (.atom a) (.atom b) (.atom c)
  | die {a b c : α} (h : rel a b c) : Aligned rel (.die a) (.die b) (.die c)
  | dice {low mid high : Term α} {a b c : α} (hcount : Aligned rel low mid high) (h : rel a b c) :
    Aligned rel (.dice low a) (.dice mid b) (.dice high c)

/-- Three chains with the same operators and related operands. Held operands are related more closely. -/
inductive Chain.Aligned {α : Type} (rel held : α → α → α → Prop) : Chain α → Chain α → Chain α → Prop
  | single {a b c : α} (h : rel a b c) : Aligned rel held (.single a) (.single b) (.single c)
  | snoc {low mid high : Chain α} {a b c : α} (op : Operator) (hfront : Aligned rel held low mid high) (h : rel a b c)
    (hheld : Held (low.ops ++ [op]) → held a b c) :
    Aligned rel held (low.snoc op a) (mid.snoc op b) (high.snoc op c)

/-- Three numerals without a `-` in front, with values in order. -/
structure Signed.Rising (a b c : Signed) : Prop where
  signs : a.signs = 0 ∧ b.signs = 0 ∧ c.signs = 0
  digits : Digits.Rising a.digits b.digits c.digits

namespace Chain.Aligned

variable {α : Type} {rel held : α → α → α → Prop}

theorem last {low mid high : Chain α} (h : Aligned rel held low mid high) :
    rel low.last mid.last high.last ∧ (Held low.ops → held low.last mid.last high.last) := by
  cases h with
  | single h => exact ⟨h, fun hheld => absurd hheld not_held_nil⟩
  | snoc op hfront h hheld => exact ⟨h, hheld⟩

theorem setLast {low mid high : Chain α} (h : Aligned rel held low mid high) {a b c : α} (hrel : rel a b c)
    (hheld : Held low.ops → held a b c) : Aligned rel held (low.setLast a) (mid.setLast b) (high.setLast c) := by
  cases h with
  | single h => exact .single hrel
  | snoc op hfront h _ => exact .snoc op hfront hrel hheld

theorem plain {low mid high : Chain Signed} (h : Aligned Signed.Rising Same low mid high) : low.Plain := by
  induction h with
  | single h => exact h.signs.1
  | snoc op hfront h _ ih => exact ⟨ih, h.signs.1⟩

end Chain.Aligned

/-! ## Sweeps over aligned chains -/

/-- An operator at numerals between others has a value between those of the others, if the lowest one is not negative.
What is divided by or subtracted has to be the same. -/
theorem combine_between {op : Operator} {l l' l'' r r' r'' : Digits} (hl : Digits.Rising l l' l'')
    (hr : Digits.Rising r r' r'') (hheld : op = .divide ∨ op = .subtract → Same r r' r'') {v w : Int}
    (hv : combine op l r = .ok v) (hw : combine op l'' r'' = .ok w) :
    ∃ u, combine op l' r' = .ok u ∧ v ≤ u ∧ u ≤ w := by
  obtain ⟨a, b, ha, hb, hv⟩ := combine_eq_ok hv
  obtain ⟨a'', b'', ha'', hb'', hw⟩ := combine_eq_ok hw
  obtain ⟨a', ha', ⟨hle, hle'⟩, -⟩ := hl.read a a'' ha ha''
  obtain ⟨b', hb', ⟨hle₂, hle₂'⟩, hsame⟩ := hr.read b b'' hb hb''
  have happly : combine op l' r' = op.apply a' b' := by rw [combine, ha', hb']; rfl
  rw [UInt64.le_iff_toNat_le] at hle hle' hle₂ hle₂'
  rw [happly]
  have hchecked : ∀ {m n : Nat}, m ≤ n → ∀ {w : Int}, checked n = .ok w → checked m = .ok m := by
    intro m n hmn w hn
    unfold checked at hn ⊢
    split at hn
    · exact if_pos (by omega)
    · cases hn
  cases op with
  | multiply =>
    have hmul : a.toNat * b.toNat ≤ a'.toNat * b'.toNat := Nat.mul_le_mul hle hle₂
    have hmul' : a'.toNat * b'.toNat ≤ a''.toNat * b''.toNat := Nat.mul_le_mul hle' hle₂'
    refine ⟨_, hchecked hmul' hw, ?_⟩
    rw [checked_eq_ok hv, checked_eq_ok hw]
    exact ⟨Int.ofNat_le.mpr hmul, Int.ofNat_le.mpr hmul'⟩
  | add =>
    have hadd : a'.toNat + b'.toNat ≤ a''.toNat + b''.toNat := Nat.add_le_add hle' hle₂'
    refine ⟨_, hchecked hadd hw, ?_⟩
    rw [checked_eq_ok hv, checked_eq_ok hw]
    omega
  | divide =>
    obtain ⟨rfl, rfl⟩ := hsame (hheld (Or.inl rfl))
    rw [Operator.apply] at hv hw ⊢
    split at hv
    · cases hv
    · rename_i hzero
      rw [if_neg hzero] at hw ⊢
      obtain rfl := Except.ok.inj hv
      obtain rfl := Except.ok.inj hw
      exact ⟨_, rfl, Int.ofNat_le.mpr (Nat.div_le_div_right hle), Int.ofNat_le.mpr (Nat.div_le_div_right hle')⟩
  | subtract =>
    obtain ⟨rfl, rfl⟩ := hsame (hheld (Or.inr rfl))
    obtain rfl := Except.ok.inj hv
    obtain rfl := Except.ok.inj hw
    exact ⟨_, rfl, by omega, by omega⟩

namespace Chain

theorem ops_sweep {op : Operator} {c swept : Chain Signed} (h : c.sweep op = .ok swept) :
    swept.ops = c.ops.filter (· ≠ op) := by
  induction c generalizing swept with
  | single s =>
    obtain rfl := Except.ok.inj h
    rfl
  | snoc front o s ih =>
    obtain ⟨c, hfront, hsame, hother⟩ := sweep_snoc_eq_ok h
    by_cases ho : o = op
    · obtain ⟨value, -, rfl⟩ := hsame ho
      simp [ops_setLast, ih hfront, ops, ho]
    · obtain rfl := hother ho
      simp [ih hfront, ops, ho]

/-- A value that leaves no `-` is not negative, and there was no `-` before. -/
theorem plain_of_put {c : Chain Signed} {value : Int} (h : (c.setLast (c.last.put value)).Plain) :
    c.Plain ∧ 0 ≤ value := by
  cases value with
  | ofNat n => cases c <;> exact ⟨h, Int.natCast_nonneg n⟩
  | negSucc n =>
    cases c with
    | single s => cases h
    | snoc front op s => cases h.2

end Chain

/-- **A sweep over aligned chains leaves aligned chains**, if it leaves no `-` in the lowest one. -/
theorem Chain.Aligned.sweep {op : Operator} {low mid high : Chain Signed}
    (h : Chain.Aligned Signed.Rising Same low mid high) (hfrom : low.From (.binary op)) {low' high' : Chain Signed}
    (hlow : low.sweep op = .ok low') (hplain : low'.Plain) (hhigh : high.sweep op = .ok high') :
    ∃ mid', mid.sweep op = .ok mid' ∧ Chain.Aligned Signed.Rising Same low' mid' high' := by
  induction h generalizing low' high' with
  | single h =>
    obtain rfl := Except.ok.inj hlow
    obtain rfl := Except.ok.inj hhigh
    exact ⟨_, rfl, .single h⟩
  | @snoc low mid high a b c o hfront h hheld ih =>
    have hfrom' : low.From (.binary op) := fun o' ho' => hfrom o' (by simp [Chain.ops, ho'])
    obtain ⟨lowSwept, hlowSwept, hlowSame, hlowOther⟩ := Chain.sweep_snoc_eq_ok hlow
    obtain ⟨highSwept, hhighSwept, hhighSame, hhighOther⟩ := Chain.sweep_snoc_eq_ok hhigh
    have hops := Chain.ops_sweep hlowSwept
    by_cases ho : o = op
    · subst ho
      obtain ⟨v, hv, rfl⟩ := hlowSame rfl
      obtain ⟨w, hw, rfl⟩ := hhighSame rfl
      obtain ⟨hplain', hnonneg⟩ := Chain.plain_of_put hplain
      obtain ⟨midSwept, hmidSwept, haligned⟩ := ih hfrom' hlowSwept hplain' hhighSwept
      obtain ⟨hlast, hlastHeld⟩ := haligned.last
      -- behind the operator that is swept stands a divisor or a subtrahend, if it has one
      have hright : o = .divide ∨ o = .subtract → Same a.digits b.digits c.digits := by
        intro ho
        have hsame : Same a b c := hheld (ho.imp (by rintro rfl; exact rightOf_concat _ _)
          (by rintro rfl; exact rightOf_concat _ _))
        exact ⟨congrArg _ hsame.1, congrArg _ hsame.2⟩
      obtain ⟨u, hu, hvu, huw⟩ := combine_between hlast.digits h.digits hright hv hw
      refine ⟨midSwept.setLast (midSwept.last.put u), ?_, haligned.setLast ?_ fun hheld' => ?_⟩
      · simp only [Chain.sweep, hmidSwept, bind, Except.bind, if_true, hu]
        rfl
      · obtain ⟨n, rfl⟩ := Int.eq_ofNat_of_zero_le hnonneg
        obtain ⟨k, rfl⟩ := Int.eq_ofNat_of_zero_le (hnonneg.trans hvu)
        obtain ⟨m, rfl⟩ := Int.eq_ofNat_of_zero_le ((hnonneg.trans hvu).trans huw)
        refine ⟨hlast.signs, ?_⟩
        simpa [Digits.Rising, Signed.put] using And.intro (Int.ofNat_le.mp hvu) (Int.ofNat_le.mp huw)
      · -- both operands are held, so they are the same, and so is what stands in their place
        obtain ⟨hl, hl'⟩ := hlastHeld hheld'
        have hafter := (Chain.sweep_after hfront.plain hfrom' hlowSwept).1
        have hheld₂ : Held (low.ops ++ [o]) := by
          refine (hheld'.concat hafter).of_concat fun r hr => ?_
          rw [hops] at hr
          exact hr.of_filter hfrom'
        obtain ⟨rfl, rfl⟩ := hheld hheld₂
        rw [← hl, hv] at hu
        rw [← hl', ← hl, hv] at hw
        obtain rfl := Except.ok.inj hu
        obtain rfl := Except.ok.inj hw
        rw [hl, hl']
        exact ⟨rfl, rfl⟩
    · obtain rfl := hlowOther ho
      obtain rfl := hhighOther ho
      obtain ⟨midSwept, hmidSwept, haligned⟩ := ih hfrom' hlowSwept hplain.1 hhighSwept
      refine ⟨midSwept.snoc o b, ?_, .snoc o haligned h fun hheld' => hheld (hheld'.of_concat fun r hr => ?_)⟩
      · simp only [Chain.sweep, hmidSwept, bind, Except.bind, if_neg ho]
        rfl
      · rw [hops] at hr
        exact hr.of_filter hfrom'

/-- The sweep for an operator, and what comes behind it. -/
theorem Chain.Aligned.sweep_bind {op : Operator} {low mid high : Chain Signed}
    (h : Chain.Aligned Signed.Rising Same low mid high) (hfrom : low.From (.binary op))
    {next : Chain Signed → Except Fault UInt64}
    (hplain : ∀ swept : Chain Signed, (op ≠ .subtract → swept.Plain) → swept.After (.binary op) →
      ∀ value, next swept = .ok value → swept.Plain)
    (hnext : ∀ low' mid' high', Chain.Aligned Signed.Rising Same low' mid' high' → low'.After (.binary op) →
      ResultsBetween (next low') (next mid') (next high') Ordered) :
    ResultsBetween (low.sweep op >>= next) (mid.sweep op >>= next) (high.sweep op >>= next) Ordered := by
  intro x z hx hz
  cases hlow : low.sweep op with
  | error fault => rw [hlow] at hx; cases hx
  | ok low' =>
    cases hhigh : high.sweep op with
    | error fault => rw [hhigh] at hz; cases hz
    | ok high' =>
      rw [hlow] at hx
      rw [hhigh] at hz
      obtain ⟨hafter, hsigns⟩ := Chain.sweep_after h.plain hfrom hlow
      obtain ⟨mid', hmid, haligned⟩ := h.sweep hfrom hlow (hplain low' hsigns hafter x hx) hhigh
      rw [hmid]
      exact hnext low' mid' high' haligned hafter x z hx hz

/-- **Aligned chains are reckoned between one another.** -/
theorem Chain.Aligned.reckon {low mid high : Chain Signed} (h : Chain.Aligned Signed.Rising Same low mid high) :
    ResultsBetween low.reckon mid.reckon high.reckon Ordered := by
  refine h.sweep_bind low.from_multiply (fun _ hp _ _ _ => hp (by decide)) fun low mid high h hafter => ?_
  refine h.sweep_bind (hafter.next (by decide)) (fun _ hp _ _ _ => hp (by decide)) fun low mid high h hafter => ?_
  refine h.sweep_bind (hafter.next (by decide)) (fun _ hp _ _ _ => hp (by decide)) fun low mid high h hafter => ?_
  refine h.sweep_bind (hafter.next (by decide)) (fun swept _ hswept value hvalue => ?_) fun low mid high h hafter => ?_
  · -- a total has no `-` in front
    cases swept with
    | snoc front o s => exact absurd hswept Chain.not_after_subtract
    | single s =>
      rw [Chain.total, Signed.total] at hvalue
      split at hvalue
      · assumption
      · cases hvalue
  · cases h with
    | snoc o hfront h _ => exact absurd hafter Chain.not_after_subtract
    | single h =>
      obtain ⟨hlow, hmid, hhigh⟩ := h.signs
      simp only [Chain.total, Signed.total, hlow, hmid, hhigh, if_true]
      intro x z hx hz
      obtain ⟨y, hy, hxyz, -⟩ := h.digits.read x z hx hz
      exact ⟨y, hy, hxyz⟩

section

variable {σ : Type} [Roller σ] {good : σ → Prop}

/-! ## Rolls of aligned terms and chains -/

/-- Three equal numerals, as terms. -/
def SameAtom (a b c : Term Digits) : Prop := ∃ d, a = .atom d ∧ b = .atom d ∧ c = .atom d

/-- **The dice of aligned terms are rolled between one another.** -/
theorem Term.Aligned.between_roll (hshows : Roller.Shows good (fun _ => 1) fun die => die.sides.toNat)
    {low mid high : Term Digits} (h : Term.Aligned Digits.Rising low mid high) :
    Play.Between good low.roll mid.roll high.roll fun a b c =>
      Digits.Rising a b c ∧ (SameAtom low mid high → Same a b c) := by
  have hrising : ∀ a b c : UInt64, Ordered a b c →
      Digits.Rising (.ofNat a.toNat) (.ofNat b.toNat) (.ofNat c.toNat) := by
    rintro a b c ⟨hab, hbc⟩
    simpa [Digits.Rising] using And.intro (UInt64.le_iff_toNat_le.mp hab) (UInt64.le_iff_toNat_le.mp hbc)
  induction h with
  | atom h =>
    refine between_pure ⟨h, ?_⟩
    rintro ⟨d, ha, hb, hc⟩
    rw [Term.atom.inj ha, Term.atom.inj hb, Term.atom.inj hc]
    exact ⟨rfl, rfl⟩
  | die h =>
    refine between_bind (between_throwDice hshows ?_ h) fun a b c habc => between_pure ⟨hrising a b c habc, ?_⟩
    · rintro _ _ ⟨rfl⟩ ⟨rfl⟩
      exact ⟨1, rfl, UInt64.le_refl _, UInt64.le_refl _⟩
    · rintro ⟨d, ha, -⟩
      cases ha
  | dice hcount h ih =>
    refine between_bind ih fun n n' n'' hn => ?_
    refine between_bind (between_throwDice hshows hn.1.count h) fun a b c habc => ?_
    refine between_pure ⟨hrising a b c habc, ?_⟩
    rintro ⟨d, ha, -⟩
    cases ha

/-- **The dice of aligned chains are rolled between one another.** -/
theorem Chain.Aligned.between_roll (hshows : Roller.Shows good (fun _ => 1) fun die => die.sides.toNat)
    {low mid high : Chain (Term Digits)} (h : Chain.Aligned (Term.Aligned Digits.Rising) SameAtom low mid high) :
    Play.Between good low.roll mid.roll high.roll fun low' mid' high' =>
      Chain.Aligned Signed.Rising Same low' mid' high' ∧ low'.ops = low.ops := by
  induction h with
  | single h =>
    exact between_bind (h.between_roll hshows) fun a b c habc => between_pure ⟨.single ⟨⟨rfl, rfl, rfl⟩, habc.1⟩, rfl⟩
  | snoc op hfront h hheld ih =>
    refine between_bind ih fun low' mid' high' hrolled => ?_
    refine between_bind (h.between_roll hshows) fun a b c habc => ?_
    refine between_pure ⟨.snoc op hrolled.1 ⟨⟨rfl, rfl, rfl⟩, habc.1⟩ fun hheld' => ?_, ?_⟩
    · rw [hrolled.2] at hheld'
      obtain ⟨rfl, rfl⟩ := habc.2 (hheld hheld')
      exact ⟨rfl, rfl⟩
    · rw [Chain.ops, Chain.ops, hrolled.2]

/-- Aligned chains have values between one another. -/
theorem Chain.Aligned.between_value (hshows : Roller.Shows good (fun _ => 1) fun die => die.sides.toNat)
    {low mid high : Chain (Term Digits)} (h : Chain.Aligned (Term.Aligned Digits.Rising) SameAtom low mid high) :
    Play.Between good low.value mid.value high.value Ordered :=
  between_bind (h.between_roll hshows) fun _ _ _ hrolled => between_ofExcept hrolled.1.reckon

end

/-! ## Expressions without dice -/

mutual

/-- Whether a die stands in an atom. -/
def Atom.hasDie : Atom → Bool
  | .numeral _ => false
  | .group e => e.hasDie

/-- Whether a die stands in a term. -/
def Term.hasDie : Term Atom → Bool
  | .atom a => a.hasDie
  | .die _ => true
  | .dice _ _ => true

/-- Whether a die stands in an expression. -/
def Chain.hasDie : Chain (Term Atom) → Bool
  | .single t => t.hasDie
  | .snoc front _ t => front.hasDie || t.hasDie

end

/-- Chains whose operands are numerals. -/
def Chain.Flat : Chain (Term Digits) → Prop
  | single t => ∃ d, t = .atom d
  | snoc front _ t => front.Flat ∧ ∃ d, t = .atom d

/-- A chain of numerals rolls no dice. -/
theorem Chain.Flat.roll {c : Chain (Term Digits)} (h : c.Flat) :
    ∃ rolled, ∀ {σ : Type} [Roller σ], (c.roll : Play σ (Chain Signed)) = pure rolled := by
  induction c with
  | single t =>
    obtain ⟨d, rfl⟩ := h
    exact ⟨.single ⟨0, d⟩, rfl⟩
  | snoc front op t ih =>
    obtain ⟨hfront, d, rfl⟩ := h
    obtain ⟨rolled, hrolled⟩ := ih hfront
    refine ⟨rolled.snoc op ⟨0, d⟩, ?_⟩
    intro σ _
    simp [Chain.roll, Term.roll, hrolled]

mutual

/-- An atom without dice is settled without a roller. -/
theorem Atom.settle_of_not_hasDie : ∀ a : Atom, a.hasDie = false →
    ∃ result : Except Fault Digits, ∀ {σ : Type} [Roller σ], (a.settle : Play σ Digits) = Play.ofExcept result
  | .numeral d, _ => ⟨.ok d, rfl⟩
  | .group e, h => by
    obtain ⟨result, hflat, hsettle⟩ := e.settle_of_not_hasDie h
    cases result with
    | error fault => exact ⟨.error fault, fun {σ} _ => by rw [Atom.settle, hsettle]; rfl⟩
    | ok chain =>
      obtain ⟨rolled, hrolled⟩ := (hflat chain rfl).roll
      refine ⟨rolled.reckon.map fun value => .ofNat value.toNat, fun {σ} _ => ?_⟩
      rw [Atom.settle, hsettle, Play.ofExcept_ok, pure_bind, Chain.value, hrolled, pure_bind]
      cases rolled.reckon <;> rfl

/-- A term without dice is settled to a numeral. -/
theorem Term.settle_of_not_hasDie : ∀ t : Term Atom, t.hasDie = false →
    ∃ result : Except Fault Digits, ∀ {σ : Type} [Roller σ],
      (t.settle : Play σ (Term Digits)) = Play.ofExcept (result.map .atom)
  | .atom a, h => by
    obtain ⟨result, hsettle⟩ := a.settle_of_not_hasDie h
    refine ⟨result, fun {σ} _ => ?_⟩
    rw [Term.settle, hsettle]
    cases result <;> rfl

/-- **An expression without dice is settled without a roller**, to a chain of numerals. -/
theorem Chain.settle_of_not_hasDie : ∀ e : Chain (Term Atom), e.hasDie = false →
    ∃ result : Except Fault (Chain (Term Digits)), (∀ c, result = .ok c → c.Flat) ∧
      ∀ {σ : Type} [Roller σ], (e.settle : Play σ (Chain (Term Digits))) = Play.ofExcept result
  | .single t, h => by
    obtain ⟨result, hsettle⟩ := t.settle_of_not_hasDie h
    refine ⟨result.map fun d => .single (.atom d), fun c hc => ?_, fun {σ} _ => ?_⟩
    · cases result with
      | error fault => cases hc
      | ok d =>
        obtain rfl := Except.ok.inj hc
        exact ⟨d, rfl⟩
    · rw [Chain.settle, hsettle]
      cases result <;> rfl
  | .snoc front op t, h => by
    obtain ⟨hfront, ht⟩ := Bool.or_eq_false_iff.mp h
    obtain ⟨result, hflat, hsettle⟩ := front.settle_of_not_hasDie hfront
    obtain ⟨result', hsettle'⟩ := t.settle_of_not_hasDie ht
    refine ⟨result >>= fun c => result'.map fun d => c.snoc op (.atom d), fun c hc => ?_, fun {σ} _ => ?_⟩
    · cases result with
      | error fault => cases hc
      | ok c' =>
        cases result' with
        | error fault => cases hc
        | ok d =>
          obtain rfl := Except.ok.inj hc
          exact ⟨hflat c' rfl, d, rfl⟩
    · rw [Chain.settle, hsettle, hsettle']
      cases result with
      | error fault => rfl
      | ok c' => cases result' <;> rfl

end

/-! ## Steady expressions -/

mutual

/-- An atom in which no die stands in a divisor or a subtrahend. -/
def Atom.Steady : Atom → Prop
  | .numeral _ => True
  | .group e => e.Steady

/-- A term in which no die stands in a divisor or a subtrahend. -/
def Term.Steady : Term Atom → Prop
  | .atom a => a.Steady
  | .die sides => sides.Steady
  | .dice count sides => count.Steady ∧ sides.Steady

/-- An expression in which no die stands in a divisor or a subtrahend. -/
def Chain.Steady : Chain (Term Atom) → Prop
  | .single t => t.Steady
  | .snoc front op t => front.Steady ∧ t.Steady ∧ (Held (front.ops ++ [op]) → t.hasDie = false)

end

section

variable {σ : Type} [Roller σ] {good : σ → Prop}

mutual

/-- A steady atom is settled between its extremes, and without a choice if no die stands in it. -/
theorem Atom.between_settle (hshows : Roller.Shows good (fun _ => 1) fun die => die.sides.toNat) :
    ∀ a : Atom, a.Steady → Play.Between good a.settle a.settle a.settle fun low mid high =>
      Digits.Rising low mid high ∧ (a.hasDie = false → Same low mid high)
  | .numeral d, _ => between_pure ⟨⟨Nat.le_refl _, Nat.le_refl _⟩, fun _ => ⟨rfl, rfl⟩⟩
  | .group e, h => by
    cases hdie : (Atom.group e).hasDie with
    | false =>
      obtain ⟨result, hsettle⟩ := (Atom.group e).settle_of_not_hasDie hdie
      rw [hsettle, hsettle]
      refine between_ofExcept ?_
      rintro a c rfl hc
      obtain rfl := Except.ok.inj hc
      exact ⟨a, rfl, ⟨Nat.le_refl _, Nat.le_refl _⟩, fun _ => ⟨rfl, rfl⟩⟩
    | true =>
      rw [Atom.settle, Atom.settle]
      refine between_bind (e.between_settle hshows h) fun _ _ _ hchain => ?_
      refine between_bind (hchain.1.between_value hshows) fun a b c habc => between_pure ⟨?_, fun h => by cases h⟩
      simpa [Digits.Rising] using And.intro (UInt64.le_iff_toNat_le.mp habc.1) (UInt64.le_iff_toNat_le.mp habc.2)

/-- So is a steady term. -/
theorem Term.between_settle (hshows : Roller.Shows good (fun _ => 1) fun die => die.sides.toNat) :
    ∀ t : Term Atom, t.Steady → Play.Between good t.settle t.settle t.settle fun low mid high =>
      Term.Aligned Digits.Rising low mid high ∧ (t.hasDie = false → SameAtom low mid high)
  | .atom a, h => by
    rw [Term.settle, Term.settle]
    refine between_bind (a.between_settle hshows h) fun low mid high hdigits => ?_
    refine between_pure ⟨.atom hdigits.1, fun hdie => ?_⟩
    obtain ⟨rfl, rfl⟩ := hdigits.2 hdie
    exact ⟨low, rfl, rfl, rfl⟩
  | .die sides, h => by
    rw [Term.settle, Term.settle]
    refine between_bind (sides.between_settle hshows h) fun _ _ _ hsides => ?_
    exact between_pure ⟨.die hsides.1, fun hdie => by cases hdie⟩
  | .dice count sides, h => by
    rw [Term.settle, Term.settle]
    refine between_bind (count.between_settle hshows h.1) fun _ _ _ hcount => ?_
    refine between_bind (sides.between_settle hshows h.2) fun _ _ _ hsides => ?_
    exact between_pure ⟨.dice hcount.1 hsides.1, fun hdie => by cases hdie⟩

/-- **A steady expression is settled between its extremes**, to chains that are aligned. -/
theorem Chain.between_settle (hshows : Roller.Shows good (fun _ => 1) fun die => die.sides.toNat) :
    ∀ e : Chain (Term Atom), e.Steady → Play.Between good e.settle e.settle e.settle fun low mid high =>
      Chain.Aligned (Term.Aligned Digits.Rising) SameAtom low mid high ∧ low.ops = e.ops
  | .single t, h => by
    rw [Chain.settle, Chain.settle]
    exact between_bind (t.between_settle hshows h) fun _ _ _ hterm => between_pure ⟨.single hterm.1, rfl⟩
  | .snoc front op t, h => by
    rw [Chain.settle, Chain.settle]
    refine between_bind (front.between_settle hshows h.1) fun low mid high hfront => ?_
    refine between_bind (t.between_settle hshows h.2.1) fun a b c hterm => between_pure ⟨?_, ?_⟩
    · refine .snoc op hfront.1 hterm.1 fun hheld => hterm.2 (h.2.2 ?_)
      rwa [← hfront.2]
    · rw [Chain.ops, Chain.ops, hfront.2]

end

/-- **A steady expression has a total between its extremes.** If it has a total with the lowest face of every die, and
one with the highest, within a budget or without one, then it has a total with any faces, which is between the two, and
so is the number of dice that are rolled. -/
theorem evaluate_between_extremes (hshows : Roller.Shows good (fun _ => 1) fun die => die.sides.toNat) {e : Expression}
    (he : e.Steady) (budget : Option UInt64) {s : σ} (hs : good s) (earlier earlier' earlier'' : UInt64)
    {lo hi : UInt64} :
    let lowest := (evaluate e.text).run (⟨⟨1⟩, earlier, budget⟩ : Tray Fixed)
    let rolled := (evaluate e.text).run (⟨s, earlier', budget⟩ : Tray σ)
    let highest := (evaluate e.text).run (⟨⟨18446744073709551615⟩, earlier'', budget⟩ : Tray Fixed)
    lowest.result = .ok lo → highest.result = .ok hi →
      ∃ v, rolled.result = .ok v ∧ (lo ≤ v ∧ v ≤ hi) ∧
        lowest.tray.booked ≤ rolled.tray.booked ∧ rolled.tray.booked ≤ highest.tray.booked := by
  intro lowest rolled highest hlo hhi
  have hbetween : Play.Between good (e.settle >>= Chain.value) (e.settle >>= Chain.value) (e.settle >>= Chain.value)
      Ordered := between_bind (e.between_settle hshows he) fun _ _ _ hchain => hchain.1.between_value hshows
  -- all three runs begin with nothing booked
  have hrun : ∀ {σ : Type} [Roller σ] (s : σ) (earlier : UInt64),
      ((evaluate e.text).run ⟨s, earlier, budget⟩).result = ((e.settle >>= Chain.value).run ⟨s, 0, budget⟩).result ∧
        ((evaluate e.text).run ⟨s, earlier, budget⟩).tray = ((e.settle >>= Chain.value).run ⟨s, 0, budget⟩).tray := by
    intro σ _ s earlier
    have hresult : ((evaluate e.text).run ⟨s, earlier, budget⟩).result =
        (e.evaluate.run ⟨s, earlier, budget⟩).result := by rw [← mute_evaluate_text]; rfl
    have htray : ((evaluate e.text).run ⟨s, earlier, budget⟩).tray =
        (e.evaluate.run ⟨s, earlier, budget⟩).tray := by rw [← mute_evaluate_text]; rfl
    exact ⟨hresult, htray⟩
  obtain ⟨hlowest, hlowestTray⟩ := hrun (⟨1⟩ : Fixed) earlier
  obtain ⟨hrolled, hrolledTray⟩ := hrun s earlier'
  obtain ⟨hhighest, hhighestTray⟩ := hrun (⟨18446744073709551615⟩ : Fixed) earlier''
  have hstart : Tray.Between good ⟨⟨1⟩, 0, budget⟩ ⟨s, 0, budget⟩ ⟨⟨18446744073709551615⟩, 0, budget⟩ :=
    ⟨rfl, hs, rfl, ⟨rfl, rfl⟩, UInt64.le_refl _, UInt64.le_refl _⟩
  obtain ⟨v, hv, hrange, htray⟩ := hbetween _ _ _ hstart lo hi (hlowest ▸ hlo) (hhighest ▸ hhi)
  refine ⟨v, hrolled.trans hv, hrange, ?_⟩
  show ((evaluate e.text).run _).tray.booked ≤ ((evaluate e.text).run _).tray.booked ∧
    ((evaluate e.text).run _).tray.booked ≤ ((evaluate e.text).run _).tray.booked
  rw [hlowestTray, hrolledTray, hhighestTray]
  exact htray.booked

/-- The expression `(2d2)d6/2`: half of what two to four dice show. -/
def halfOfSomeDice : Expression :=
  let count : Expression := .single (.dice (.atom (.numeral (.ofNat 2))) (.numeral (.ofNat 2)))
  (Chain.single (.dice (.atom (.group count)) (.numeral (.ofNat 6)))).snoc .divide (.atom (.numeral (.ofNat 2)))

theorem evaluate_between_extremes_cycle :
    halfOfSomeDice.Steady ∧
      ((evaluate halfOfSomeDice.text).run (⟨⟨1⟩, 0, some 6⟩ : Tray Fixed)).result = .ok 1 ∧
      ((evaluate halfOfSomeDice.text).run (⟨⟨18446744073709551615⟩, 0, some 6⟩ : Tray Fixed)).result = .ok 12 ∧
      ∃ v, ((evaluate halfOfSomeDice.text).run (⟨⟨[1, 2, 5], 0⟩, 0, some 6⟩ : Tray Cycle)).result = .ok v ∧
        1 ≤ v ∧ v ≤ 12 := by
  have hsteady : halfOfSomeDice.Steady := by
    simp [halfOfSomeDice, Chain.Steady, Term.Steady, Atom.Steady, Term.hasDie, Atom.hasDie]
  have hrun : ∀ tray : Tray Fixed,
      ((evaluate halfOfSomeDice.text).run tray).result = (halfOfSomeDice.evaluate.run tray).result := by
    intro tray
    rw [← mute_evaluate_text]
    rfl
  have hlowest : ((evaluate halfOfSomeDice.text).run (⟨⟨1⟩, 0, some 6⟩ : Tray Fixed)).result = .ok 1 := by
    rw [hrun]
    rfl
  have hhighest : ((evaluate halfOfSomeDice.text).run
      (⟨⟨18446744073709551615⟩, 0, some 6⟩ : Tray Fixed)).result = .ok 12 := by
    rw [hrun]
    rfl
  obtain ⟨v, hv, hrange, -⟩ :=
    evaluate_between_extremes shows_cycle hsteady (some 6) trivial 0 0 0 hlowest hhighest
  exact ⟨hsteady, hlowest, hhighest, v, hv, hrange⟩

end

end TabletopDice
