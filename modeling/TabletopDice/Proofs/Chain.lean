import TabletopDice.Proofs.Digits
import TabletopDice.Proofs.RowReduction

/-!
# Chains of operators

A chain is a row of operands with operators between them. Its value is defined by sweeps over the chain, and does not
mention the text: `Chain.roll` rolls all dice from the left, and `Chain.reckon` then sweeps once for each operator, in
the order of `Rule.priority`. A sweep replaces each of its operators, from the left, and both neighbours of it by one
integer.

- `Rule.rank` is the place of a rule in that order; a rule applies if no rule of a lower rank occurs
  (`rowRedex?_of_find?`);
- the dice of a row are rolled first (`mute_reduceRow_roll`), and then one sweep follows the other
  (`mute_reduceRow_sweep`);
- reducing the row of a chain gives the value of the chain (`mute_reduceRow_chain`), events apart.
-/

namespace TabletopDice

open Lexeme

/-! ## Terms and chains -/

/-- Operands joined by `d`: the first `d` may lack its count, and what stands in front of each other `d` is the count
of it. -/
inductive Term (α : Type)
  | atom (a : α)
  | die (sides : α)
  | dice (count : Term α) (sides : α)
  deriving DecidableEq, Repr

/-- Operands with operators between them. -/
inductive Chain (α : Type)
  | single (a : α)
  | snoc (front : Chain α) (op : Operator) (last : α)
  deriving DecidableEq, Repr

/-- Digits behind any number of `-`. -/
structure Signed where
  signs : Nat
  digits : Digits

/-- The lexemes of a term. -/
def Term.row : Term Digits → List Lexeme
  | atom d => [d.lexeme]
  | die sides => [.mark 'd', sides.lexeme]
  | dice count sides => count.row ++ [.mark 'd', sides.lexeme]

/-- A number of `-`. -/
def minuses (n : Nat) : List Lexeme := List.replicate n (.mark '-')

/-- The lexemes of digits behind `-`. -/
def Signed.row (s : Signed) : List Lexeme := minuses s.signs ++ [s.digits.lexeme]

theorem Signed.join_row (s : Signed) : join s.row = List.replicate s.signs '-' ++ s.digits.text := by
  have hminuses : ∀ n, join (minuses n) = List.replicate n '-' := by
    intro n
    induction n with
    | zero => rfl
    | succ n ih => rw [minuses, List.replicate_succ, join_cons, ← minuses, ih]; rfl
  rw [row, join_append, hminuses]
  simp [Digits.lexeme, Lexeme.text]

namespace Chain

variable {α : Type}

/-- The lexemes of a chain. -/
def row (f : α → List Lexeme) : Chain α → List Lexeme
  | single a => f a
  | snoc front op last => front.row f ++ .mark op.mark :: f last

/-- The operators of a chain. -/
def ops : Chain α → List Operator
  | single _ => []
  | snoc front op _ => front.ops ++ [op]

/-- The last operand. -/
def last : Chain α → α
  | single a => a
  | snoc _ _ a => a

/-- The chain with another last operand. -/
def setLast : Chain α → α → Chain α
  | single _, a => single a
  | snoc front op _, a => snoc front op a

end Chain

/-! ## The value of a chain -/

/-- The integer in the place of the digits. A negative one adds a `-` to those in front. -/
def Signed.put (s : Signed) : Int → Signed
  | .ofNat n => ⟨s.signs, .ofNat n⟩
  | .negSucc n => ⟨s.signs + 1, .ofNat (n + 1)⟩

/-- The number of the digits, which must not have a `-` in front. -/
def Signed.total (s : Signed) : Except Fault UInt64 :=
  if s.signs = 0 then s.digits.read else .error (.malformed (join s.row))

namespace Chain

/-- Replaces an operator and its neighbours by one integer, from the left, wherever the operator stands. The digits
next to it are its operands; a `-` left in front of them stays. -/
def sweep (op : Operator) : Chain Signed → Except Fault (Chain Signed)
  | single s => return single s
  | snoc front o s => do
    let swept ← front.sweep op
    if o = op then
      let value ← combine op swept.last.digits s.digits
      return swept.setLast (swept.last.put value)
    else return swept.snoc o s

/-- The number of a chain that has come down to one operand. -/
def total : Chain Signed → Except Fault UInt64
  | single s => s.total
  | c => .error (.malformed (join (c.row Signed.row)))

/-- One sweep for each operator, and the number that they leave. -/
def reckon (c : Chain Signed) : Except Fault UInt64 := do
  let c ← c.sweep .multiply
  let c ← c.sweep .divide
  let c ← c.sweep .add
  let c ← c.sweep .subtract
  c.total

end Chain

section

variable {σ : Type} [Roller σ]

/-- Rolls the dice of a term from the left; each total is the count of the dice behind it. -/
def Term.roll : Term Digits → Play σ Digits
  | atom d => return d
  | die sides => return .ofNat (← throwDice none sides).toNat
  | dice count sides => do
    let n ← count.roll
    return .ofNat (← throwDice (some n) sides).toNat

/-- Rolls the dice of a chain from the left. -/
def Chain.roll : Chain (Term Digits) → Play σ (Chain Signed)
  | single t => return single ⟨0, ← t.roll⟩
  | snoc front op t => do
    let rolled ← front.roll
    return rolled.snoc op ⟨0, ← t.roll⟩

/-- The value of a chain: first its dice, then its operators. -/
def Chain.value (c : Chain (Term Digits)) : Play σ UInt64 := do
  let rolled ← c.roll
  Play.ofExcept rolled.reckon

end

/-! ## The order of rules -/

namespace Rule

/-- The place of a rule in the order in which rules are tried. -/
def rank (rule : Rule) : Nat := priority.idxOf rule

theorem mem_priority (rule : Rule) : rule ∈ priority := by
  rcases rule with _ | op
  · decide
  · cases op <;> decide

theorem rank_lt_of_ne {r s : Rule} (h : r.rank ≤ s.rank) (hne : r ≠ s) : r.rank < s.rank :=
  Nat.lt_of_le_of_ne h fun he => hne ((List.idxOf_inj (mem_priority r)).mp he)

/-- Rules are told apart by their marks. -/
theorem eq_of_mark_eq {r s : Rule} (h : r.mark = s.mark) : r = s := by
  have hall : ∀ r ∈ priority, ∀ s ∈ priority, r.mark = s.mark → r = s := by decide
  exact hall r (mem_priority r) s (mem_priority s) h

theorem mark_ne_of_rank_lt {r s : Rule} (h : r.rank < s.rank) : r.mark ≠ s.mark := by
  intro he
  rw [eq_of_mark_eq he] at h
  exact Nat.lt_irrefl _ h

theorem rank_le_subtract (r : Rule) : r.rank ≤ (binary .subtract).rank := by
  have hall : ∀ r ∈ priority, r.rank ≤ (binary .subtract).rank := by decide
  exact hall r (mem_priority r)

theorem ne_subtract_of_rank_lt {op o : Operator} (h : (binary op).rank < (binary o).rank) : op ≠ .subtract := by
  rintro rfl
  exact absurd (rank_le_subtract (binary o)) (Nat.not_le.mpr h)

end Rule

/-- **A rule applies if it occurs and no rule tried before it does.** -/
theorem rowRedex?_of_find? {rule : Rule} {row : List Lexeme} {m : Match} (h : rule.find? row = some m)
    (hnone : ∀ r : Rule, r.rank < rule.rank → r.find? row = none) : rowRedex? row = some (rule, m) := by
  have hsplit : ∃ front rest, Rule.priority = front ++ rule :: rest ∧ ∀ r ∈ front, r.rank < rule.rank := by
    rcases rule with _ | op
    · exact ⟨[], _, rfl, by simp⟩
    · cases op
      · exact ⟨[.dice], _, rfl, by decide⟩
      · exact ⟨[.dice, .binary .multiply], _, rfl, by decide⟩
      · exact ⟨[.dice, .binary .multiply, .binary .divide], _, rfl, by decide⟩
      · exact ⟨[.dice, .binary .multiply, .binary .divide, .binary .add], _, rfl, by decide⟩
  obtain ⟨front, rest, hpriority, hfront⟩ := hsplit
  have hskip : front.findSome? (fun r => (r.find? row).map fun m => (r, m)) = none := by
    rw [List.findSome?_eq_none_iff]
    intro r hr
    rw [hnone r (hfront r hr)]
    rfl
  rw [rowRedex?, hpriority, List.findSome?_append, hskip]
  simp [h]

/-! ## Rows that begin with `-` -/

/-- No redex begins with a `-`. -/
theorem Rule.find?_minus (rule : Rule) (row : List Lexeme) :
    rule.find? (.mark '-' :: row) = (rule.find? row).map fun m => { m with before := .mark '-' :: m.before } := by
  have hhead : rule.head? (.mark '-' :: row) = none := by
    unfold Rule.head?
    split
    · rename_i heq; cases heq
    · rename_i heq
      obtain ⟨hc, -⟩ := List.cons.inj heq
      rw [if_neg]
      rintro rfl
      cases hc
    · rename_i heq; cases heq
    · rfl
  exact Rule.find?_cons_of_none hhead

theorem Rule.find?_minuses (rule : Rule) (n : Nat) (row : List Lexeme) :
    rule.find? (minuses n ++ row) = (rule.find? row).map fun m => { m with before := minuses n ++ m.before } := by
  induction n with
  | zero => simp [minuses]
  | succ n ih =>
    have hsucc : ∀ r, minuses (n + 1) ++ r = .mark '-' :: (minuses n ++ r) := fun r => rfl
    rw [hsucc, Rule.find?_minus, ih, Option.map_map]
    rfl

/-- No rule applies to digits behind `-`. -/
theorem rowRedex?_signed (s : Signed) : rowRedex? s.row = none := by
  have hnone : ∀ rule : Rule, rule.find? s.row = none := by
    intro rule
    rw [Signed.row, Rule.find?_minuses]
    rcases rule with _ | op <;> rfl
  simp [rowRedex?, hnone]

/-- An integer put in the place of the digits leaves its row there. -/
theorem Signed.row_put (s : Signed) (value : Int) : (s.put value).row = minuses s.signs ++ integerRow value := by
  cases value with
  | ofNat n => rfl
  | negSucc n =>
    show minuses (s.signs + 1) ++ [.numeral (Numeral.write (n + 1))] = _
    rw [minuses, List.replicate_succ']
    simp [minuses, integerRow]

/-! ## The marks of a chain -/

namespace Chain

/-- No operand has a `-` in front. -/
def Plain : Chain Signed → Prop
  | single s => s.signs = 0
  | snoc front _ s => front.Plain ∧ s.signs = 0

/-- The marks of a chain are its operators, and any `-` in front of operands. -/
theorem mem_ops_of_mem_row {c : Chain Signed} {x : Char} (h : .mark x ∈ c.row Signed.row) :
    (∃ o ∈ c.ops, x = o.mark) ∨ (x = '-' ∧ ¬ c.Plain) := by
  have hsigned : ∀ s : Signed, .mark x ∈ s.row → x = '-' ∧ s.signs ≠ 0 := by
    intro s hs
    simpa [Signed.row, minuses, Digits.lexeme, and_comm] using hs
  induction c with
  | single s => exact Or.inr (hsigned s h)
  | snoc front op s ih =>
    simp only [row, List.mem_append, List.mem_cons, Lexeme.mark.injEq] at h
    rcases h with h | rfl | h
    · rcases ih h with ⟨o, ho, rfl⟩ | ⟨hx, hplain⟩
      · exact Or.inl ⟨o, by simp [ops, ho], rfl⟩
      · exact Or.inr ⟨hx, fun hc => hplain hc.1⟩
    · exact Or.inl ⟨op, by simp [ops], rfl⟩
    · obtain ⟨hx, hs⟩ := hsigned s h
      exact Or.inr ⟨hx, fun hc => hs hc.2⟩

/-- All operators of the chain are tried after a rule, or with it. -/
def From (rule : Rule) (c : Chain Signed) : Prop := ∀ o ∈ c.ops, rule.rank ≤ (Rule.binary o).rank

/-- All operators of the chain are tried after a rule. -/
def After (rule : Rule) (c : Chain Signed) : Prop := ∀ o ∈ c.ops, rule.rank < (Rule.binary o).rank

theorem from_multiply (c : Chain Signed) : c.From (.binary .multiply) := by
  intro o _
  cases o <;> decide

theorem After.next {r s : Rule} {c : Chain Signed} (h : c.After r) (hrank : s.rank ≤ r.rank + 1) : c.From s :=
  fun o ho => by
    have := h o ho
    omega

theorem After.toFrom {rule : Rule} {c : Chain Signed} (h : c.After rule) : c.From rule :=
  fun o ho => Nat.le_of_lt (h o ho)

/-- No mark of a rule that is tried earlier stands in a chain. -/
theorem From.not_mem_row {rule r : Rule} {c : Chain Signed} (h : c.From r) (hrule : rule.rank < r.rank) :
    .mark rule.mark ∉ c.row Signed.row := by
  intro hmem
  rcases mem_ops_of_mem_row hmem with ⟨o, ho, hx⟩ | ⟨hx, -⟩
  · exact Rule.mark_ne_of_rank_lt (Nat.lt_of_lt_of_le hrule (h o ho)) hx
  · exact Rule.mark_ne_of_rank_lt (Nat.lt_of_lt_of_le hrule (Rule.rank_le_subtract r)) hx

/-- No operator is tried after `-`. -/
theorem not_after_subtract {front : Chain Signed} {o : Operator} {s : Signed} :
    ¬ (front.snoc o s).After (.binary .subtract) := fun h =>
  Nat.not_lt.mpr (Rule.rank_le_subtract (.binary o)) (h o (by simp [ops]))

/-- No mark of a rule stands in a chain of operators that are tried later. -/
theorem After.not_mem_row {rule : Rule} {c : Chain Signed} (h : c.After rule)
    (hplain : rule = .binary .subtract → c.Plain) : .mark rule.mark ∉ c.row Signed.row := by
  intro hmem
  rcases mem_ops_of_mem_row hmem with ⟨o, ho, hx⟩ | ⟨hx, hc⟩
  · exact Rule.mark_ne_of_rank_lt (h o ho) hx
  · refine hc (hplain ?_)
    by_contra hne
    exact Rule.mark_ne_of_rank_lt (Rule.rank_lt_of_ne (Rule.rank_le_subtract rule) hne) hx

end Chain

section

variable {σ : Type} [Roller σ]

/-! ## Dice -/

/-- A pass tells what it does, and has the value of its redex otherwise. -/
theorem mute_contract (rule : Rule) (m : Match) :
    (contract rule m : Play σ Int).mute = (rule.valueOf m.text).mute := by
  simp only [contract, Play.mute_bind, Play.mute_tell, Play.mute_pure, pure_bind, bind_pure]

/-- A redex that applies is replaced by its value, and the reduction goes on. -/
theorem mute_reduceRow_of_redex {rule : Rule} {row : List Lexeme} {m : Match} (h : rowRedex? row = some (rule, m)) :
    (reduceRow row : Play σ UInt64).mute = (rule.valueOf m.text).mute >>= fun value =>
      (reduceRow (m.rewrite value)).mute := by
  rw [reduceRow_of_redex h, Play.mute_bind, mute_contract]

/-- The leftmost dice are replaced by their total. -/
theorem mute_reduceRow_dice (count : Option Digits) (sides : Digits) {front : List Lexeme}
    (hfront : .mark 'd' ∉ front) (hborder : ∀ x, front.getLast? = some x → x.isInteger → count ≠ none)
    (after : List Lexeme) :
    (reduceRow (front ++ diceRow count sides ++ after) : Play σ UInt64).mute =
      throwDice count sides >>= fun total =>
        (reduceRow (front ++ (Digits.ofNat total.toNat).lexeme :: after)).mute := by
  have hfind : Rule.dice.find? (front ++ diceRow count sides ++ after) = some ⟨front, diceRow count sides, after⟩ := by
    refine Rule.find?_of_front (redex_diceRow count sides) hfront (fun x hx hnum => ?_) after
    cases count with
    | none => exact absurd rfl (hborder x hx hnum)
    | some count => simp [diceRow, Digits.lexeme]
  have hredex := rowRedex?_of_find? hfind fun r hr => absurd hr (Nat.not_lt_zero _)
  rw [mute_reduceRow_of_redex hredex, Match.text, join_diceRow, mute_valueOf_diceText, bind_assoc]
  simp only [pure_bind]
  congr 1
  funext total
  simp [Match.rewrite, integerRow, Digits.lexeme, Digits.ofNat]

/-- The dice of a term are rolled from the left. -/
theorem mute_reduceRow_term (t : Term Digits) {front : List Lexeme} (hfront : .mark 'd' ∉ front)
    (hborder : ∀ x, front.getLast? = some x → ¬ x.isInteger) (after : List Lexeme) :
    (reduceRow (front ++ t.row ++ after) : Play σ UInt64).mute =
      t.roll >>= fun n => (reduceRow (front ++ n.lexeme :: after)).mute := by
  induction t generalizing after with
  | atom d => simp [Term.row, Term.roll]
  | die sides =>
    have hrow : (Term.die sides).row = diceRow none sides := rfl
    rw [hrow, mute_reduceRow_dice none sides hfront (fun x hx hnum => absurd hnum (hborder x hx)), Term.roll]
    simp only [bind_assoc, pure_bind]
  | dice count sides ih =>
    have hrow : front ++ (count.dice sides).row ++ after =
        front ++ count.row ++ (.mark 'd' :: sides.lexeme :: after) := by simp [Term.row]
    rw [hrow, ih, Term.roll, bind_assoc]
    congr 1
    funext n
    have hrow' : front ++ n.lexeme :: .mark 'd' :: sides.lexeme :: after =
        front ++ diceRow (some n) sides ++ after := by simp [diceRow]
    rw [hrow', mute_reduceRow_dice (some n) sides hfront (fun _ _ _ => by simp)]
    simp only [bind_assoc, pure_bind]

/-- **Dice are rolled first, and from the left.** -/
theorem mute_reduceRow_roll (c : Chain (Term Digits)) (after : List Lexeme) :
    (reduceRow (c.row Term.row ++ after) : Play σ UInt64).mute =
      c.roll >>= fun rolled => (reduceRow (rolled.row Signed.row ++ after)).mute := by
  induction c generalizing after with
  | single t =>
    have h : (reduceRow ([] ++ t.row ++ after) : Play σ UInt64).mute = _ :=
      mute_reduceRow_term t (by simp) (by simp) after
    simpa [Chain.row, Chain.roll, Signed.row, minuses] using h
  | snoc front op t ih =>
    have hrow : (front.snoc op t).row Term.row ++ after = front.row Term.row ++ (.mark op.mark :: t.row ++ after) := by
      simp [Chain.row]
    rw [hrow, ih, Chain.roll, bind_assoc]
    congr 1
    funext rolled
    have hfirst : Rule.dice.rank < (Rule.binary .multiply).rank := by decide
    have hrolled : .mark 'd' ∉ rolled.row Signed.row := rolled.from_multiply.not_mem_row hfirst
    have hop : 'd' ≠ op.mark := by cases op <;> decide
    have hfront : .mark 'd' ∉ rolled.row Signed.row ++ [.mark op.mark] := by simp [hrolled, hop]
    have hborder : ∀ x, (rolled.row Signed.row ++ [Lexeme.mark op.mark]).getLast? = some x → ¬ x.isInteger := by
      intro x hx
      rw [List.getLast?_concat] at hx
      obtain rfl := Option.some.inj hx
      simp [Lexeme.isInteger]
    have hterm : (reduceRow (rolled.row Signed.row ++ [.mark op.mark] ++ t.row ++ after) : Play σ UInt64).mute = _ :=
      mute_reduceRow_term t hfront hborder after
    simpa [Chain.row, Signed.row, minuses] using hterm

/-! ## Sweeps -/

namespace Chain

/-- What stands in front of the digits of the last operand. -/
def stem : Chain Signed → List Lexeme
  | single s => minuses s.signs
  | snoc front op s => front.row Signed.row ++ .mark op.mark :: minuses s.signs

theorem row_eq_stem (c : Chain Signed) : c.row Signed.row = c.stem ++ [c.last.digits.lexeme] := by
  cases c <;> simp [row, stem, last, Signed.row]

theorem row_setLast_put (c : Chain Signed) (value : Int) :
    (c.setLast (c.last.put value)).row Signed.row = c.stem ++ integerRow value := by
  cases c <;> simp [row, stem, last, setLast, Signed.row_put]

theorem ops_setLast (c : Chain Signed) (s : Signed) : (c.setLast s).ops = c.ops := by
  cases c <;> rfl

theorem Plain.setLast {c : Chain Signed} (h : c.Plain) {s : Signed} (hs : s.signs = 0) : (c.setLast s).Plain := by
  cases c with
  | single _ => exact hs
  | snoc front op _ => exact ⟨h.1, hs⟩

theorem Plain.last {c : Chain Signed} (h : c.Plain) : c.last.signs = 0 := by
  cases c with
  | single _ => exact h
  | snoc front op _ => exact h.2

/-- A sweep over a longer chain goes on from the sweep over its front. -/
theorem sweep_snoc_eq_ok {op o : Operator} {front swept : Chain Signed} {s : Signed}
    (h : (front.snoc o s).sweep op = .ok swept) : ∃ c, front.sweep op = .ok c ∧
      (o = op → ∃ value, combine op c.last.digits s.digits = .ok value ∧ swept = c.setLast (c.last.put value)) ∧
      (o ≠ op → swept = c.snoc o s) := by
  rw [sweep] at h
  cases hfront : front.sweep op with
  | error fault => rw [hfront] at h; cases h
  | ok c =>
    rw [hfront] at h
    refine ⟨c, rfl, fun ho => ?_, fun ho => ?_⟩
    · simp only [bind, Except.bind, if_pos ho] at h
      cases hvalue : combine op c.last.digits s.digits with
      | error fault => rw [hvalue] at h; cases h
      | ok value =>
        rw [hvalue] at h
        exact ⟨value, rfl, (Except.ok.inj h).symm⟩
    · simp only [bind, Except.bind, if_neg ho] at h
      exact (Except.ok.inj h).symm

/-- **A sweep leaves no operator of its own**, and only differences leave a `-` in front of an operand. -/
theorem sweep_after {op : Operator} {c swept : Chain Signed} (hplain : c.Plain) (hfrom : c.From (.binary op))
    (h : c.sweep op = .ok swept) : swept.After (.binary op) ∧ (op ≠ .subtract → swept.Plain) := by
  induction c generalizing swept with
  | single s =>
    obtain rfl := Except.ok.inj h
    exact ⟨fun o ho => absurd ho (by simp [ops]), fun _ => hplain⟩
  | snoc front o s ih =>
    obtain ⟨c, hfront, hsame, hother⟩ := sweep_snoc_eq_ok h
    obtain ⟨hafter, hc⟩ := ih hplain.1 (fun o ho => hfrom o (by simp [ops, ho])) hfront
    by_cases ho : o = op
    · obtain ⟨value, hvalue, rfl⟩ := hsame ho
      refine ⟨fun o ho => hafter o (by rwa [ops_setLast] at ho), fun hop => (hc hop).setLast ?_⟩
      obtain ⟨a, b, -, -, happly⟩ := combine_eq_ok hvalue
      obtain ⟨n, rfl⟩ := Int.eq_ofNat_of_zero_le (apply_nonneg hop happly)
      exact (hc hop).last
    · obtain rfl := hother ho
      refine ⟨fun o' ho' => ?_, fun hop => ⟨hc hop, hplain.2⟩⟩
      rcases List.mem_append.mp ho' with ho' | ho'
      · exact hafter o' ho'
      · obtain rfl := List.mem_singleton.mp ho'
        exact Rule.rank_lt_of_ne (hfrom o' (by simp [ops])) fun he => ho (Rule.binary.inj he).symm

/-- A sweep fails as one of its operators does. -/
theorem sweep_eq_error {op : Operator} {c : Chain Signed} {fault : Fault} (h : c.sweep op = .error fault) :
    fault = .overflow ∨ fault = .divisionByZero := by
  induction c with
  | single s => cases h
  | snoc front o s ih =>
    rw [sweep] at h
    cases hfront : front.sweep op with
    | error fault' =>
      rw [hfront] at h
      obtain rfl := Except.error.inj h
      exact ih hfront
    | ok c =>
      rw [hfront] at h
      by_cases ho : o = op
      · simp only [bind, Except.bind, if_pos ho] at h
        cases hvalue : combine op c.last.digits s.digits with
        | error fault' =>
          rw [hvalue] at h
          obtain rfl := Except.error.inj h
          exact combine_eq_error hvalue
        | ok value => rw [hvalue] at h; cases h
      · simp only [bind, Except.bind, if_neg ho] at h
        cases h

/-- What stands in front of the last operand of a swept chain does not hide an operator: it has none of the kind, or
is a number of `-`. -/
theorem After.stem {op : Operator} {c : Chain Signed} (h : c.After (.binary op)) (hplain : op ≠ .subtract → c.Plain) :
    .mark op.mark ∉ c.stem ∨ ∃ n, c.stem = minuses n := by
  cases c with
  | single s => exact Or.inr ⟨s.signs, rfl⟩
  | snoc front o s =>
    have hop : op ≠ .subtract := Rule.ne_subtract_of_rank_lt (h o (by simp [ops]))
    have hrow : .mark (Rule.binary op).mark ∉ (front.snoc o s).row Signed.row := h.not_mem_row fun _ => hplain hop
    rw [row_eq_stem] at hrow
    exact Or.inl fun hmem => hrow (List.mem_append_left _ hmem)

end Chain

/-- An operator that applies is replaced, with its operands, by one integer. -/
theorem mute_reduceRow_operator {op : Operator} {l r : Digits} {front after : List Lexeme}
    (hfront : .mark op.mark ∉ front ∨ ∃ n, front = minuses n)
    (hnone : ∀ rule : Rule, rule.rank < (Rule.binary op).rank →
      .mark rule.mark ∉ front ++ operatorRow op l r ++ after) :
    (reduceRow (front ++ operatorRow op l r ++ after) : Play σ UInt64).mute =
      Play.ofExcept (combine op l r) >>= fun value => (reduceRow (front ++ integerRow value ++ after)).mute := by
  have hfind : (Rule.binary op).find? (front ++ operatorRow op l r ++ after) =
      some ⟨front, operatorRow op l r, after⟩ := by
    rcases hfront with hfront | ⟨n, rfl⟩
    · have hhead : (operatorRow op l r).head? ≠ some (.mark (Rule.binary op).mark) := by
        simp [operatorRow, Digits.lexeme]
      exact Rule.find?_of_front (redex_operatorRow op l r) hfront (fun _ _ _ => hhead) after
    · have hnil : (Rule.binary op).find? ([] ++ operatorRow op l r ++ after) = _ :=
        Rule.find?_of_front (redex_operatorRow op l r) (by simp) (by simp) after
      rw [List.nil_append] at hnil
      rw [List.append_assoc, Rule.find?_minuses, hnil]
      simp
  have hredex := rowRedex?_of_find? hfind fun rule hrule => Rule.find?_eq_none_of (hnone rule hrule)
  rw [mute_reduceRow_of_redex hredex, Match.text, join_operatorRow, Rule.valueOf, valueOf_operatorText,
    Play.mute_ofExcept]
  rfl

/-- **The passes for an operator are one sweep over the chain.** -/
theorem mute_reduceRow_sweep {op : Operator} {c : Chain Signed} (hplain : c.Plain) (hfrom : c.From (.binary op))
    {after : List Lexeme} (hafter : ∀ rule : Rule, rule.rank < (Rule.binary op).rank → .mark rule.mark ∉ after) :
    (reduceRow (c.row Signed.row ++ after) : Play σ UInt64).mute =
      Play.ofExcept (c.sweep op) >>= fun swept => (reduceRow (swept.row Signed.row ++ after)).mute := by
  induction c generalizing after with
  | single s => rfl
  | snoc front o s ih =>
    have hs : s.row = [s.digits.lexeme] := by simp [Signed.row, minuses, hplain.2]
    have hrow : (front.snoc o s).row Signed.row ++ after =
        front.row Signed.row ++ (.mark o.mark :: s.digits.lexeme :: after) := by simp [Chain.row, hs]
    have ho := hfrom o (by simp [Chain.ops])
    have hfrom' : front.From (.binary op) := fun o' ho' => hfrom o' (by simp [Chain.ops, ho'])
    have hafter' : ∀ rule : Rule, rule.rank < (Rule.binary op).rank →
        .mark rule.mark ∉ .mark o.mark :: s.digits.lexeme :: after := by
      intro rule hrule hmem
      rcases List.mem_cons.mp hmem with he | hmem
      · exact Rule.mark_ne_of_rank_lt (s := .binary o) (by omega) (Lexeme.mark.inj he)
      · rcases List.mem_cons.mp hmem with he | hmem
        · cases he
        · exact hafter rule hrule hmem
    rw [hrow, ih hplain.1 hfrom' hafter', Chain.sweep, Play.ofExcept_bind, bind_assoc]
    cases hswept : front.sweep op with
    | error fault => rfl
    | ok swept =>
      obtain ⟨hlater, hsigns⟩ := Chain.sweep_after hplain.1 hfrom' hswept
      simp only [Play.ofExcept_ok, pure_bind]
      by_cases hop : o = op
      · subst hop
        have hrow' : swept.row Signed.row ++ .mark o.mark :: s.digits.lexeme :: after =
            swept.stem ++ operatorRow o swept.last.digits s.digits ++ after := by
          simp [Chain.row_eq_stem, operatorRow]
        have hnone : ∀ rule : Rule, rule.rank < (Rule.binary o).rank →
            .mark rule.mark ∉ swept.row Signed.row ++ .mark o.mark :: s.digits.lexeme :: after := by
          intro rule hrule hmem
          rcases List.mem_append.mp hmem with hmem | hmem
          · exact hlater.toFrom.not_mem_row hrule hmem
          · exact hafter' rule hrule hmem
        rw [hrow'] at hnone ⊢
        rw [mute_reduceRow_operator (hlater.stem hsigns) hnone, if_pos rfl, Play.ofExcept_bind, bind_assoc]
        congr 1
        funext value
        rw [← Chain.row_setLast_put]
        rfl
      · have hrow' : (swept.snoc o s).row Signed.row ++ after =
            swept.row Signed.row ++ .mark o.mark :: s.digits.lexeme :: after := by simp [Chain.row, hs]
        rw [if_neg hop, ← hrow']
        rfl

/-- A chain of one operand has the number of that operand. -/
theorem reduceRow_signed (s : Signed) : (reduceRow s.row : Play σ UInt64) = Play.ofExcept s.total := by
  rw [reduceRow_of_no_redex (rowRedex?_signed s), Signed.total]
  rcases s with ⟨_ | n, digits⟩
  · have hread : readTotal digits.text = digits.read := digits.readOperand_text
    simp [Signed.row, minuses, isNumeralRow, Digits.lexeme, Lexeme.text, hread]
  · have hrow : isNumeralRow (Signed.row ⟨n + 1, digits⟩) = false := rfl
    rw [hrow]
    rfl

/-- A numeral is reduced to its number. -/
theorem reduce_digits (d : Digits) : (reduce d.text : Play σ UInt64) = Play.ofExcept d.read := by
  have hrow : lexemes d.text = Signed.row ⟨0, d⟩ := lexemes_digits d.ne_nil d.isDigit
  have htotal : Signed.total ⟨0, d⟩ = d.read := if_pos rfl
  rw [reduce_eq_reduceRow, hrow, reduceRow_signed, htotal]

/-- Before the passes that follow a sweep, the passes of the sweep. -/
theorem mute_reduceRow_next {op : Operator} {c : Chain Signed} (hplain : c.Plain) (hfrom : c.From (.binary op))
    {next : Chain Signed → Except Fault UInt64}
    (hnext : ∀ swept : Chain Signed, swept.After (.binary op) → (op ≠ .subtract → swept.Plain) →
      (reduceRow (swept.row Signed.row) : Play σ UInt64).mute = Play.ofExcept (next swept)) :
    (reduceRow (c.row Signed.row) : Play σ UInt64).mute = Play.ofExcept (c.sweep op >>= next) := by
  have hsweep : (reduceRow (c.row Signed.row ++ []) : Play σ UInt64).mute = _ :=
    mute_reduceRow_sweep hplain hfrom fun _ _ => by simp
  rw [List.append_nil] at hsweep
  rw [hsweep, Play.ofExcept_bind]
  cases hswept : c.sweep op with
  | error fault => rfl
  | ok swept =>
    obtain ⟨hafter, hsigns⟩ := Chain.sweep_after hplain hfrom hswept
    rw [Play.ofExcept_ok, pure_bind, pure_bind, List.append_nil]
    exact hnext swept hafter hsigns

/-- **The passes over a chain without dice are its sweeps.** -/
theorem mute_reduceRow_reckon {c : Chain Signed} (hplain : c.Plain) :
    (reduceRow (c.row Signed.row) : Play σ UInt64).mute = Play.ofExcept c.reckon := by
  refine mute_reduceRow_next hplain c.from_multiply fun c hc hplain => ?_
  refine mute_reduceRow_next (hplain (by decide)) (hc.next (by decide)) fun c hc hplain => ?_
  refine mute_reduceRow_next (hplain (by decide)) (hc.next (by decide)) fun c hc hplain => ?_
  refine mute_reduceRow_next (hplain (by decide)) (hc.next (by decide)) fun c hc _ => ?_
  cases c with
  | single s =>
    rw [Chain.row, reduceRow_signed, Play.mute_ofExcept]
    rfl
  | snoc front o s => exact absurd hc Chain.not_after_subtract

-- each difference below zero leaves its sign: 1-3-5 comes to --3
example : (((Chain.single ⟨0, .ofNat 1⟩).snoc .subtract ⟨0, .ofNat 3⟩).snoc .subtract ⟨0, .ofNat 5⟩).reckon =
    .error (.malformed ['-', '-', '3']) := rfl

theorem Chain.yields_roll (c : Chain (Term Digits)) : (c.roll : Play σ (Chain Signed)).Yields Chain.Plain := by
  induction c with
  | single t => exact (Play.yields_true _).bind fun n _ => Play.yields_pure rfl
  | snoc front op t ih =>
    refine ih.bind fun rolled hrolled => (Play.yields_true _).bind fun n _ => ?_
    exact Play.yields_pure ⟨hrolled, rfl⟩

/-- **Reducing the row of a chain gives the value of the chain**, events apart. -/
theorem mute_reduceRow_chain (c : Chain (Term Digits)) :
    (reduceRow (c.row Term.row) : Play σ UInt64).mute = c.value := by
  have hroll : (reduceRow (c.row Term.row ++ []) : Play σ UInt64).mute = _ := mute_reduceRow_roll c []
  rw [List.append_nil] at hroll
  rw [hroll, Chain.value]
  refine Play.bind_congr_of_yields c.yields_roll fun rolled hplain => ?_
  rw [List.append_nil, mute_reduceRow_reckon hplain]

end
end TabletopDice
