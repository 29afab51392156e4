import TabletopDice.Evaluation
import TabletopDice.Proofs.Digits
import TabletopDice.Proofs.Nesting

/-!
# The shape of expressions

- `WellShaped` says which characters may stand next to each other in an expression, and that its parentheses are
  nested;
- a `Reading` goes over a text once, from the left. It remembers whether an operand has just ended and how many
  parentheses are open. It comes to the end of exactly the well-shaped texts with an operand and no open parenthesis
  (`wellShaped_iff_read`);
- a redex, a group with a well-shaped inside and a written number are all read alike, as an operand
  (`read_diceText`, `read_operatorText`, `read_group`, `read_write`). A written negative number is at most that
  (`read_writeInt`).
-/

namespace TabletopDice

/-! ## Well-shaped texts -/

/-- Whether a character writes an operator. -/
def isOperator (c : Char) : Bool := c = '+' || c = '-' || c = '*' || c = '/'

theorem exists_mark_of_isOperator {c : Char} (h : isOperator c) : ∃ op : Operator, c = op.mark := by
  have hmark : c = '+' ∨ c = '-' ∨ c = '*' ∨ c = '/' := by simpa [isOperator, or_assoc] using h
  rcases hmark with rfl | rfl | rfl | rfl
  · exact ⟨.add, rfl⟩
  · exact ⟨.subtract, rfl⟩
  · exact ⟨.multiply, rfl⟩
  · exact ⟨.divide, rfl⟩

/-- Whether a character can stand in an expression. -/
def inExpression (c : Char) : Bool := c.isDigit || c = 'd' || c = '(' || c = ')' || isOperator c

/-- Whether an operand can begin with a character. -/
def opensOperand (c : Char) : Bool := c.isDigit || c = 'd' || c = '('

/-- Whether an operand can end with a character. -/
def closesOperand (c : Char) : Bool := c.isDigit || c = ')'

/-- Texts with nested parentheses in which operators stand between operands, and an operand follows each `d` and each
`(`. -/
structure WellShaped (t : Text) : Prop where
  ne_nil : t ≠ []
  alphabet : ∀ c ∈ t, inExpression c
  nested : ∀ u v, t = u ++ v → u.count ')' ≤ u.count '('
  balanced : t.count ')' = t.count '('
  operator : ∀ u c v, t = u ++ c :: v → isOperator c → u.getLast?.any closesOperand ∧ v.head?.any opensOperand
  operand : ∀ u c v, t = u ++ c :: v → c = 'd' ∨ c = '(' → v.head?.any opensOperand

/-! ## Reading a text once -/

/-- Whether an operand has just ended, and the number of open parentheses. -/
structure Reading where
  ready : Bool := false
  depth : Nat := 0
  deriving DecidableEq, Repr

namespace Reading

/-- Reads a character, if it may stand here. -/
def step (s : Reading) (c : Char) : Option Reading :=
  if c.isDigit then some ⟨true, s.depth⟩
  else if c = 'd' then some ⟨false, s.depth⟩
  else if c = '(' then some ⟨false, s.depth + 1⟩
  else if c = ')' then if s.ready ∧ 0 < s.depth then some ⟨true, s.depth - 1⟩ else none
  else if isOperator c then if s.ready then some ⟨false, s.depth⟩ else none
  else none

/-- Reads a text. -/
def read (s : Reading) (t : Text) : Option Reading := t.foldlM step s

/-- **What a character does**: a digit ends an operand, a `d` and a `(` begin one, and the others need an operand in
front of them. -/
theorem step_eq_some_iff {s s' : Reading} {c : Char} : s.step c = some s' ↔
    (c.isDigit ∧ s' = ⟨true, s.depth⟩) ∨ (c = 'd' ∧ s' = ⟨false, s.depth⟩) ∨ (c = '(' ∧ s' = ⟨false, s.depth + 1⟩) ∨
      (c = ')' ∧ s.ready ∧ s.depth = s'.depth + 1 ∧ s'.ready) ∨ (isOperator c ∧ s.ready ∧ s' = ⟨false, s.depth⟩) := by
  constructor
  · intro h
    unfold step at h
    split at h
    · exact Or.inl ⟨‹_›, (Option.some.inj h).symm⟩
    · split at h
      · exact Or.inr (Or.inl ⟨‹_›, (Option.some.inj h).symm⟩)
      · split at h
        · exact Or.inr (Or.inr (Or.inl ⟨‹_›, (Option.some.inj h).symm⟩))
        · split at h
          · split at h
            · rename_i hc hs
              obtain rfl := Option.some.inj h
              exact Or.inr (Or.inr (Or.inr (Or.inl ⟨hc, hs.1, by have := hs.2; simp only; omega, rfl⟩)))
            · cases h
          · split at h
            · split at h
              · exact Or.inr (Or.inr (Or.inr (Or.inr ⟨‹_›, ‹_›, (Option.some.inj h).symm⟩)))
              · cases h
            · cases h
  · rintro (⟨hc, rfl⟩ | ⟨rfl, rfl⟩ | ⟨rfl, rfl⟩ | ⟨rfl, hs, hd, hs'⟩ | ⟨hc, hs, rfl⟩)
    · simp [step, hc]
    · rfl
    · rfl
    · obtain ⟨_, d⟩ := s'
      obtain rfl : _ = true := hs'
      simp only at hd
      simp [step, hs, hd, Char.isDigit]
    · obtain ⟨op, rfl⟩ := exists_mark_of_isOperator hc
      cases op <;> simp [step, isOperator, Operator.mark, hs, Char.isDigit]

@[simp] theorem read_nil (s : Reading) : s.read [] = some s := rfl

@[simp] theorem read_cons (s : Reading) (c : Char) (t : Text) : s.read (c :: t) = s.step c >>= fun s => s.read t := by
  simp [read]

/-- A text is read part by part. -/
theorem read_append (s : Reading) (u v : Text) : s.read (u ++ v) = s.read u >>= fun s => s.read v := by
  simp [read, List.foldlM_append]

theorem read_append_eq_some {s s' : Reading} {u v : Text} :
    s.read (u ++ v) = some s' ↔ ∃ m, s.read u = some m ∧ m.read v = some s' := by
  rw [read_append]
  exact Option.bind_eq_some_iff

theorem read_cons_eq_some {s s' : Reading} {c : Char} {t : Text} :
    s.read (c :: t) = some s' ↔ ∃ m, s.step c = some m ∧ m.read t = some s' := by
  rw [read_cons]
  exact Option.bind_eq_some_iff

/-! ## What a reading tells of the text -/

theorem inExpression_of_step {s s' : Reading} {c : Char} (h : s.step c = some s') : inExpression c := by
  rcases step_eq_some_iff.mp h with ⟨hc, -⟩ | ⟨rfl, -⟩ | ⟨rfl, -⟩ | ⟨rfl, -⟩ | ⟨hc, -⟩
  · simp [inExpression, hc]
  · decide
  · decide
  · decide
  · simp [inExpression, hc]

/-- An operand has ended exactly after a character that can end one. -/
theorem ready_of_step {s s' : Reading} {c : Char} (h : s.step c = some s') : s'.ready = closesOperand c := by
  rcases step_eq_some_iff.mp h with ⟨hc, rfl⟩ | ⟨rfl, rfl⟩ | ⟨rfl, rfl⟩ | ⟨rfl, -, -, hs'⟩ | ⟨hc, -, rfl⟩
  · simp [closesOperand, hc]
  · rfl
  · rfl
  · exact hs'
  · obtain ⟨op, rfl⟩ := exists_mark_of_isOperator hc
    cases op <;> rfl

/-- Where no operand has ended, one begins. -/
theorem opensOperand_of_step {s s' : Reading} {c : Char} (h : s.step c = some s') (hs : s.ready = false) :
    opensOperand c := by
  rcases step_eq_some_iff.mp h with ⟨hc, -⟩ | ⟨rfl, -⟩ | ⟨rfl, -⟩ | ⟨-, hready, -⟩ | ⟨-, hready, -⟩
  · simp [opensOperand, hc]
  · decide
  · decide
  · rw [hs] at hready; cases hready
  · rw [hs] at hready; cases hready

/-- The open parentheses are counted. -/
theorem depth_of_step {s s' : Reading} {c : Char} (h : s.step c = some s') :
    s'.depth + [c].count ')' = s.depth + [c].count '(' := by
  have hcount : ∀ x : Char, x ≠ '(' → x ≠ ')' → [x].count '(' = 0 ∧ [x].count ')' = 0 := by
    intro x hl hr
    simp [hl, hr]
  rcases step_eq_some_iff.mp h with ⟨hc, rfl⟩ | ⟨rfl, rfl⟩ | ⟨rfl, rfl⟩ | ⟨rfl, -, hd, -⟩ | ⟨hc, -, rfl⟩
  · obtain ⟨hl, hr⟩ := hcount c (by rintro rfl; revert hc; decide) (by rintro rfl; revert hc; decide)
    rw [hl, hr]
  · rfl
  · rfl
  · have hl : [')'].count '(' = 0 := by decide
    have hr : [')'].count ')' = 1 := by decide
    omega
  · obtain ⟨hl, hr⟩ := hcount c (by rintro rfl; revert hc; decide) (by rintro rfl; revert hc; decide)
    rw [hl, hr]

theorem inExpression_of_read {s s' : Reading} {t : Text} (h : s.read t = some s') : ∀ c ∈ t, inExpression c := by
  induction t generalizing s with
  | nil => simp
  | cons c t ih =>
    obtain ⟨m, hm, ht⟩ := read_cons_eq_some.mp h
    intro d hd
    rcases List.mem_cons.mp hd with rfl | hd
    · exact inExpression_of_step hm
    · exact ih ht d hd

theorem ready_of_read {s s' : Reading} {t : Text} (h : s.read t = some s') :
    s'.ready = t.getLast?.elim s.ready closesOperand := by
  induction t generalizing s with
  | nil => obtain rfl := Option.some.inj h; rfl
  | cons c t ih =>
    obtain ⟨m, hm, ht⟩ := read_cons_eq_some.mp h
    rw [ih ht, ready_of_step hm, List.getLast?_cons]
    cases t.getLast? <;> rfl

theorem depth_of_read {s s' : Reading} {t : Text} (h : s.read t = some s') :
    s'.depth + t.count ')' = s.depth + t.count '(' := by
  induction t generalizing s with
  | nil => obtain rfl := Option.some.inj h; rfl
  | cons c t ih =>
    obtain ⟨m, hm, ht⟩ := read_cons_eq_some.mp h
    have hstep := depth_of_step hm
    have hrest := ih ht
    rw [List.count_cons, List.count_cons]
    simp only [List.count_singleton] at hstep
    omega

/-- Where no operand has ended, one begins, and the text is not over. -/
theorem opensOperand_of_read {s s' : Reading} {t : Text} (h : s.read t = some s') (hs : s.ready = false)
    (hs' : s'.ready = true) : t.head?.any opensOperand := by
  cases t with
  | nil =>
    obtain rfl := Option.some.inj h
    rw [hs] at hs'
    cases hs'
  | cons c t =>
    obtain ⟨m, hm, -⟩ := read_cons_eq_some.mp h
    exact opensOperand_of_step hm hs

end Reading

/-! ## Well-shaped texts are read -/

/-- A text that is read to an operand, with no parenthesis left open, is well-shaped. -/
theorem wellShaped_of_read {t : Text} (h : Reading.read {} t = some ⟨true, 0⟩) : WellShaped t where
  ne_nil := by rintro rfl; cases h
  alphabet := Reading.inExpression_of_read h
  nested := by
    rintro u v rfl
    obtain ⟨m, hu, -⟩ := Reading.read_append_eq_some.mp h
    have hdepth := Reading.depth_of_read hu
    simp only at hdepth
    omega
  balanced := by
    have hdepth := Reading.depth_of_read h
    simp only at hdepth
    omega
  operator := by
    rintro u c v rfl hc
    obtain ⟨m, hu, hrest⟩ := Reading.read_append_eq_some.mp h
    obtain ⟨m', hm, hv⟩ := Reading.read_cons_eq_some.mp hrest
    have hready := Reading.ready_of_read hu
    rcases Reading.step_eq_some_iff.mp hm with ⟨hd, -⟩ | ⟨rfl, -⟩ | ⟨rfl, -⟩ | ⟨rfl, -⟩ | ⟨-, hs, rfl⟩
    · obtain ⟨op, rfl⟩ := exists_mark_of_isOperator hc
      rw [isDigit_mark] at hd
      cases hd
    · exact absurd hc (by decide)
    · exact absurd hc (by decide)
    · exact absurd hc (by decide)
    · refine ⟨?_, Reading.opensOperand_of_read hv rfl rfl⟩
      rw [hs] at hready
      cases hlast : u.getLast? with
      | none => rw [hlast] at hready; cases hready
      | some x => rw [hlast] at hready; exact hready.symm
  operand := by
    rintro u c v rfl hc
    obtain ⟨m, hu, hrest⟩ := Reading.read_append_eq_some.mp h
    obtain ⟨m', hm, hv⟩ := Reading.read_cons_eq_some.mp hrest
    refine Reading.opensOperand_of_read hv ?_ rfl
    rw [Reading.ready_of_step hm]
    rcases hc with rfl | rfl <;> rfl

/-- Only an operand can end where none begins. -/
theorem WellShaped.closesOperand {t : Text} (h : WellShaped t) {u v : Text} {x : Char} (ht : t = u ++ x :: v)
    (hv : v.head?.any opensOperand = false) : closesOperand x := by
  have hx := h.alphabet x (by simp [ht])
  simp only [inExpression, Bool.or_eq_true, decide_eq_true_eq] at hx
  rcases hx with (((hx | rfl) | rfl) | rfl) | hx
  · simp [TabletopDice.closesOperand, hx]
  · rw [h.operand u 'd' v ht (Or.inl rfl)] at hv
    cases hv
  · rw [h.operand u '(' v ht (Or.inr rfl)] at hv
    cases hv
  · rfl
  · rw [(h.operator u x v ht hx).2] at hv
    cases hv

/-- Each front part of a well-shaped text is read. -/
theorem WellShaped.read_front {t : Text} (h : WellShaped t) (u : Text) :
    ∀ v, t = u ++ v → ∃ s, Reading.read {} u = some s := by
  induction u using List.reverseRecOn with
  | nil => exact fun _ _ => ⟨{}, rfl⟩
  | append_singleton u c ih =>
    intro v ht
    have hsplit : t = u ++ c :: v := by simp [ht]
    obtain ⟨m, hu⟩ := ih (c :: v) hsplit
    have hready := Reading.ready_of_read hu
    suffices hstep : ∃ s, m.step c = some s by
      obtain ⟨s, hs⟩ := hstep
      exact ⟨s, Reading.read_append_eq_some.mpr ⟨m, hu, by simp [hs]⟩⟩
    have hc := h.alphabet c (by simp [ht])
    simp only [inExpression, Bool.or_eq_true, decide_eq_true_eq] at hc
    rcases hc with (((hc | rfl) | rfl) | rfl) | hc
    · exact ⟨_, Reading.step_eq_some_iff.mpr (Or.inl ⟨hc, rfl⟩)⟩
    · exact ⟨_, rfl⟩
    · exact ⟨_, rfl⟩
    · have hnested := h.nested (u ++ [')']) v ht
      have hdepth := Reading.depth_of_read hu
      simp only [List.count_append, List.count_singleton] at hnested hdepth
      simp only [beq_self_eq_true, if_true, beq_iff_eq, Char.reduceEq, if_false] at hnested
      -- a `)` cannot come first, and what stands in front of it ends an operand
      have hs : m.ready = true := by
        rcases List.eq_nil_or_concat' u with rfl | ⟨u, x, rfl⟩
        · simp at hnested
        · have hclose : t = u ++ x :: ')' :: v := by simp [ht]
          rw [hready, List.getLast?_concat]
          exact h.closesOperand hclose rfl
      obtain ⟨d, hd⟩ : ∃ d, m.depth = d + 1 := ⟨m.depth - 1, by omega⟩
      exact ⟨⟨true, d⟩, Reading.step_eq_some_iff.mpr (Or.inr (Or.inr (Or.inr (Or.inl ⟨rfl, hs, hd, rfl⟩))))⟩
    · have hs : m.ready = true := by
        have hlast := (h.operator u c v hsplit hc).1
        rw [hready]
        cases hx : u.getLast? with
        | none => rw [hx] at hlast; cases hlast
        | some x => rw [hx] at hlast; exact hlast
      exact ⟨_, Reading.step_eq_some_iff.mpr (Or.inr (Or.inr (Or.inr (Or.inr ⟨hc, hs, rfl⟩))))⟩

/-- **The well-shaped texts are those that are read to an operand, with no parenthesis left open.** -/
theorem wellShaped_iff_read {t : Text} : WellShaped t ↔ Reading.read {} t = some ⟨true, 0⟩ := by
  refine ⟨fun h => ?_, wellShaped_of_read⟩
  obtain ⟨⟨ready, depth⟩, hread⟩ := h.read_front t [] (by simp)
  have hready := Reading.ready_of_read hread
  have hdepth := Reading.depth_of_read hread
  have hbalanced := h.balanced
  rcases List.eq_nil_or_concat' t with rfl | ⟨u, x, rfl⟩
  · exact absurd rfl h.ne_nil
  · rw [List.getLast?_concat] at hready
    have hclose : u ++ [x] = u ++ x :: [] := rfl
    obtain rfl : ready = true := hready.trans (h.closesOperand hclose rfl)
    obtain rfl : depth = 0 := by simp only at hdepth; omega
    exact hread

-- a count may be missing behind another `d`
example : WellShaped ['3', 'd', 'd', '6'] := wellShaped_iff_read.mpr rfl

/-! ## What is read as an operand -/

namespace Reading

theorem step_mark (op : Operator) (s : Reading) (hs : s.ready = true) : s.step op.mark = some ⟨false, s.depth⟩ := by
  cases op <;> simp [step, isOperator, Operator.mark, hs, Char.isDigit]

theorem read_numeral (d : Digits) (s : Reading) : s.read d.text = some ⟨true, s.depth⟩ := by
  have hstep : ∀ (s : Reading) (c : Char), c.isDigit → s.step c = some ⟨true, s.depth⟩ := fun s c hc =>
    step_eq_some_iff.mpr (Or.inl ⟨hc, rfl⟩)
  have hrest : ∀ t : Text, (∀ c ∈ t, c.isDigit) → ∀ k, Reading.read ⟨true, k⟩ t = some ⟨true, k⟩ := by
    intro t ht k
    induction t with
    | nil => rfl
    | cons c t ih =>
      rw [read_cons, hstep _ c (ht c List.mem_cons_self)]
      exact ih fun d hd => ht d (List.mem_cons_of_mem _ hd)
  obtain ⟨_ | ⟨c, t⟩, hne, hdigits⟩ := d
  · exact absurd rfl hne
  · rw [read_cons, hstep s c (hdigits c List.mem_cons_self)]
    exact hrest t (fun d hd => hdigits d (List.mem_cons_of_mem _ hd)) s.depth

theorem read_diceText (count : Option Digits) (sides : Digits) (s : Reading) :
    s.read (diceText count sides) = some ⟨true, s.depth⟩ := by
  have hd : ∀ s : Reading, s.read ('d' :: sides.text) = some ⟨true, s.depth⟩ := fun s =>
    read_cons_eq_some.mpr ⟨_, rfl, read_numeral sides _⟩
  cases count with
  | none => exact hd s
  | some count => exact read_append_eq_some.mpr ⟨_, read_numeral count s, hd _⟩

theorem read_operatorText (op : Operator) (l r : Digits) (s : Reading) :
    s.read (operatorText op l r) = some ⟨true, s.depth⟩ := by
  exact read_append_eq_some.mpr ⟨_, read_numeral l s, read_cons_eq_some.mpr ⟨_, step_mark op _ rfl, read_numeral r _⟩⟩

theorem read_write (n : Nat) (s : Reading) : s.read (Numeral.write n) = some ⟨true, s.depth⟩ :=
  read_numeral (Digits.ofNat n) s

/-- A negative number is read as an operand, if it is read at all. -/
theorem read_writeInt {value : Int} {s s' : Reading} (h : s.read (Numeral.writeInt value) = some s') :
    s' = ⟨true, s.depth⟩ := by
  cases value with
  | ofNat n => exact (Option.some.inj ((read_write n s).symm.trans h)).symm
  | negSucc n =>
    obtain ⟨m, hm, hdigits⟩ := read_cons_eq_some.mp h
    rw [read_write] at hdigits
    have hdepth := depth_of_step hm
    obtain rfl := Option.some.inj hdigits
    simpa using hdepth

/-- A part of a text may be exchanged for one that is read in the same way. -/
theorem read_exchange {x y : Text} (h : ∀ s s' : Reading, s.read x = some s' → s.read y = some s') {u w : Text}
    {s s' : Reading} (hread : s.read (u ++ x ++ w) = some s') : s.read (u ++ y ++ w) = some s' := by
  obtain ⟨m, hux, hw⟩ := read_append_eq_some.mp hread
  obtain ⟨m', hu, hx⟩ := read_append_eq_some.mp hux
  exact read_append_eq_some.mpr ⟨m, read_append_eq_some.mpr ⟨m', hu, h _ _ hx⟩, hw⟩

/-- Without parentheses, the number of open ones does not matter. -/
theorem read_of_not_isParen {t : Text} (ht : ∀ c ∈ t, Group.isParen c = false) {s s' : Reading}
    (h : s.read t = some s') : s'.depth = s.depth ∧ ∀ k, Reading.read ⟨s.ready, k⟩ t = some ⟨s'.ready, k⟩ := by
  induction t generalizing s with
  | nil => obtain rfl := Option.some.inj h; exact ⟨rfl, fun _ => rfl⟩
  | cons c t ih =>
    obtain ⟨m, hm, hrest⟩ := read_cons_eq_some.mp h
    obtain ⟨hdepth, hread⟩ := ih (fun d hd => ht d (List.mem_cons_of_mem _ hd)) hrest
    have hstep : m.depth = s.depth ∧ ∀ k, Reading.step ⟨s.ready, k⟩ c = some ⟨m.ready, k⟩ := by
      have hc := ht c List.mem_cons_self
      rcases step_eq_some_iff.mp hm with ⟨hd, rfl⟩ | ⟨rfl, rfl⟩ | ⟨rfl, rfl⟩ | ⟨rfl, -⟩ | ⟨hop, hs, rfl⟩
      · exact ⟨rfl, fun k => step_eq_some_iff.mpr (Or.inl ⟨hd, rfl⟩)⟩
      · exact ⟨rfl, fun k => rfl⟩
      · cases hc
      · cases hc
      · exact ⟨rfl, fun k => step_eq_some_iff.mpr (Or.inr (Or.inr (Or.inr (Or.inr ⟨hop, hs, rfl⟩))))⟩
    exact ⟨hdepth.trans hstep.1, fun k => read_cons_eq_some.mpr ⟨_, hstep.2 k, hread k⟩⟩

/-- A group with a well-shaped inside is read as an operand. -/
theorem read_group {inside : Text} (hparen : ∀ c ∈ inside, Group.isParen c = false) (h : WellShaped inside)
    (s : Reading) : s.read ('(' :: (inside ++ [')'])) = some ⟨true, s.depth⟩ := by
  have hinside := (read_of_not_isParen hparen (wellShaped_iff_read.mp h)).2 (s.depth + 1)
  exact read_cons_eq_some.mpr ⟨⟨false, s.depth + 1⟩, rfl, read_append_eq_some.mpr ⟨_, hinside, rfl⟩⟩

/-- The inside of a group that is read is well-shaped. -/
theorem wellShaped_of_read_group {inside : Text} (hparen : ∀ c ∈ inside, Group.isParen c = false) {s s' : Reading}
    (h : s.read ('(' :: (inside ++ [')'])) = some s') : WellShaped inside := by
  obtain ⟨m, hm, hrest⟩ := read_cons_eq_some.mp h
  obtain ⟨m', hinside, hclose⟩ := read_append_eq_some.mp hrest
  obtain ⟨m'', hstep, -⟩ := read_cons_eq_some.mp hclose
  obtain rfl : _ = m := Option.some.inj hm
  have hread := (read_of_not_isParen hparen hinside).2 0
  have hready : m'.ready = true := by
    rcases step_eq_some_iff.mp hstep with ⟨hd, -⟩ | ⟨hd, -⟩ | ⟨hd, -⟩ | ⟨-, hready, -⟩ | ⟨hop, -⟩
    · exact absurd hd (by decide)
    · exact absurd hd (by decide)
    · exact absurd hd (by decide)
    · exact hready
    · exact absurd hop (by decide)
  rw [hready] at hread
  exact wellShaped_iff_read.mpr hread

end Reading

/-- A well-shaped text has no quotes. -/
theorem WellShaped.unquote_eq {t : Text} (h : WellShaped t) : unquote t = t := by
  refine List.filter_eq_self.mpr fun c hc => ?_
  have hin := h.alphabet c hc
  rw [bne_iff_ne]
  rintro rfl
  exact absurd hin (by decide)

/-- A well-shaped text without groups has no parentheses. -/
theorem WellShaped.not_isParen {t : Text} (h : WellShaped t) (hloose : Loose t) :
    ∀ c ∈ t, Group.isParen c = false := by
  have hbalanced := h.balanced
  have hleft : '(' ∉ t := by
    intro hmem
    obtain ⟨u, v, rfl⟩ := List.append_of_mem hmem
    have hv : v.count ')' = 0 := List.count_eq_zero.mpr (hloose u v rfl)
    have hnested := h.nested u _ rfl
    simp [List.count_append, hv] at hbalanced
    omega
  have hright : ')' ∉ t := by
    rw [← List.count_eq_zero, hbalanced, List.count_eq_zero]
    exact hleft
  intro c hc
  cases hparen : Group.isParen c with
  | false => rfl
  | true =>
    have hlr : c = '(' ∨ c = ')' := by simpa [Group.isParen] using hparen
    rcases hlr with rfl | rfl
    · exact absurd hc hleft
    · exact absurd hc hright

end TabletopDice
