import Mathlib.Logic.Function.Iterate
import TabletopDice.Proofs.Parametric
import TabletopDice.Proofs.PassCount
import TabletopDice.Roller.Replay

/-!
# Groups and their values

A group may be exchanged for its value, and parentheses around a whole instruction do nothing.

- `Outcome.Agrees` compares outcomes up to the passes and groups that they tell of. Plays agree if they are the same
  once they tell of nothing but dice (`agrees_of_only_eq`);
- a text without a `d` comes to the same result on all trays, and leaves them alone (`only_reduce_of_total`);
- what stands behind a front does not matter until the groups of the front are resolved (`total_behind`). So a group
  without dice may stand behind any front, with unmatched parentheses, dice and faults of its own, and its value may
  stand there instead (`only_total_exchange`, `evaluate_exchange`);
- a text with `Nested` parentheses is a nest in which all of them match (`closed_nesting`). One more pair around it is
  resolved last and leaves a numeral (`only_total_group`), and so does any number of them (`evaluate_parenthesized`).
-/

namespace TabletopDice

open Lexeme

/-! ## What dice show in an outcome -/

/-- Whether an event tells of dice. -/
def Event.isRoll : Event → Bool
  | .rolled _ _ => true
  | _ => false

/-- What an outcome tells of dice, in their order. -/
def Outcome.rolls {σ α : Type} (outcome : Outcome σ α) : List Event := outcome.events.filter Event.isRoll

/-- Outcomes that differ at most in the passes and the groups that they tell of. -/
structure Outcome.Agrees {σ α : Type} (a b : Outcome σ α) : Prop where
  result : a.result = b.result
  tray : a.tray = b.tray
  rolls : a.rolls = b.rolls

theorem Play.agrees_of_only_eq {σ α : Type} {p q : Play σ α} (h : p.only Event.isRoll = q.only Event.isRoll)
    (tray : Tray σ) : (p.run tray).Agrees (q.run tray) := by
  have hrun : (p.only Event.isRoll).run tray = (q.only Event.isRoll).run tray := by rw [h]
  exact ⟨(congrArg Outcome.result hrun :), (congrArg Outcome.tray hrun :), (congrArg Outcome.events hrun :)⟩

section

variable {σ τ : Type} [Roller σ] [Roller τ]

/-- A pass tells of dice only for its value. -/
theorem only_contract (rule : Rule) (m : Match) : (contract rule m : Play σ Int).only Event.isRoll =
    (rule.valueOf m.text).only Event.isRoll := by
  simp only [contract, Play.only_bind, Play.only_tell, Event.isRoll, Bool.false_eq_true, if_false, Play.only_pure,
    pure_bind, bind_pure]

/-- An instruction rolls the dice of its text without quotes. -/
theorem only_evaluate (t : Text) : (evaluate t : Play σ UInt64).only Event.isRoll =
    Play.reset >>= fun _ => (resolveGroups (unquote t) >>= Resolution.total).only Event.isRoll := by
  rw [evaluate_eq_bind]
  simp only [Play.only_bind, Play.only_reset, Play.only_booked, Play.only_tell, Event.isRoll, Bool.false_eq_true,
    if_false, Play.only_pure, Play.booked_bind, pure_bind, bind_pure]

/-- A group is replaced by its value, and nothing else tells of dice. -/
theorem only_total_of_group {t : Text} {g : Group} (h : Group.find? t = some g) :
    (resolveGroups t >>= Resolution.total : Play σ UInt64).only Event.isRoll =
      (reduce g.inside).only Event.isRoll >>= fun value =>
        (resolveGroups (g.replace value) >>= Resolution.total).only Event.isRoll := by
  rw [total_of_group h]
  simp only [Play.only_bind, Play.only_tell, Event.isRoll, Bool.false_eq_true, if_false, pure_bind]

end

/-! ## Texts without dice -/

/-- Rows without a `d` come to a result that hangs on no tray. -/
theorem exists_only_reduceRow {row : List Lexeme} (h : .mark 'd' ∉ row) : ∃ result : Except Fault UInt64,
    ∀ (σ : Type) [Roller σ], (reduceRow row : Play σ UInt64).only Event.isRoll = Play.ofExcept result := by
  induction row using row_induction with
  | normal row hredex =>
    by_cases hnum : isNumeralRow row
    · refine ⟨readTotal (join row), fun σ _ => ?_⟩
      rw [reduceRow_of_no_redex hredex, if_pos hnum, Play.only_ofExcept]
    · refine ⟨.error (.malformed (join row)), fun σ _ => ?_⟩
      rw [reduceRow_of_no_redex hredex, if_neg hnum]
      rfl
  | redex row rule m hredex ih =>
    have hfind := find?_of_rowRedex? hredex
    cases rule with
    | dice =>
      rw [Rule.find?_eq_none_of h] at hfind
      cases hfind
    | binary op =>
      have hpass : ∀ (σ : Type) [Roller σ], (reduceRow row : Play σ UInt64).only Event.isRoll =
          Play.ofExcept (op.valueOf m.text) >>= fun value => (reduceRow (m.rewrite value)).only Event.isRoll := by
        intro σ _
        rw [reduceRow_of_redex hredex, Play.only_bind, only_contract, Rule.valueOf, Play.only_ofExcept]
      cases hvalue : op.valueOf m.text with
      | error fault =>
        refine ⟨.error fault, fun σ _ => ?_⟩
        rw [hpass, hvalue]
        rfl
      | ok value =>
        have hrewrite : .mark 'd' ∉ m.rewrite value := by
          rw [Rule.row_eq_of_find? hfind] at h
          have hinteger : .mark 'd' ∉ integerRow value := by cases value <;> simp [integerRow]
          simp only [Match.rewrite, List.mem_append] at h ⊢
          tauto
        obtain ⟨result, hresult⟩ := ih value hrewrite
        refine ⟨result, fun σ _ => ?_⟩
        rw [hpass, hvalue, Play.ofExcept_ok, pure_bind, hresult]

section

variable {σ τ : Type} [Roller σ] [Roller τ]

/-- **A text without a `d` that has a total on some tray has it on every tray**, whatever the roller. -/
theorem only_reduce_of_total {t : Text} (h : 'd' ∉ t) {somewhere : Tray τ} {total : UInt64}
    (htotal : ((reduce t).run somewhere).result = .ok total) :
    (reduce t : Play σ UInt64).only Event.isRoll = pure total := by
  have hrow : .mark 'd' ∉ lexemes t := by
    rw [← List.count_eq_zero, count_mark_lexemes (by decide), List.count_eq_zero]
    exact h
  obtain ⟨result, hresult⟩ := exists_only_reduceRow hrow
  have hsomewhere : (reduce t : Play τ UInt64).only Event.isRoll = Play.ofExcept result := by
    rw [reduce_eq_reduceRow, hresult]
  have hok : result = .ok total := by
    rw [← htotal]
    exact (congrArg (fun play => (play.run somewhere).result) hsomewhere).symm
  rw [reduce_eq_reduceRow, hresult, hok, Play.ofExcept_ok]

/-- A text with a total has no parentheses. -/
theorem not_isParen_of_total {t : Text} {tray : Tray σ} {total : UInt64}
    (h : ((reduce t).run tray).result = .ok total) : ∀ c ∈ t, Group.isParen c = false := by
  have hleft := yields_reduce_leftParen t tray total h
  exact (yields_reduce t tray total h).not_isParen (loose_of_not_mem_left hleft)

/-- A written number is a numeral, and is reduced to that number. -/
theorem reduce_write (n : UInt64) : (reduce (Numeral.write n.toNat) : Play σ UInt64) = pure n := by
  have hread : (reduce (Digits.ofNat n.toNat).text : Play σ UInt64) = _ := reduce_digits _
  rw [Digits.read_ofNat, Play.ofExcept_ok] at hread
  exact hread

/-! ## A group behind a front -/

/-- Groups that are settled leave a loose text. -/
theorem yields_settled (t : Text) : ((nesting t).settled : Play σ Text).Yields Loose := by
  refine (nesting t).yields_resolve.bind fun r hr => ?_
  obtain ⟨buffer, _ | fault⟩ := r
  · refine Play.yields_pure ?_
    rw [← loose_filter, hr rfl, loose_filter]
    exact (tidy_and_loose_nesting t).2
  · exact fun _ _ h => by cases h

/-- **The groups of a front are resolved before all that stands behind it.** -/
theorem total_behind (front rest : Text) : (resolveGroups (front ++ rest) >>= Resolution.total : Play σ UInt64) =
    (nesting front).settled >>= fun settled => resolveGroups (settled ++ rest) >>= Resolution.total := by
  obtain ⟨htidy, hloose⟩ := tidy_and_loose_nesting front
  have hcontext : (resolveGroups ([] ++ (nesting front).spell ++ rest) : Play σ Resolution) = _ :=
    resolveGroups_context htidy hloose rest
  rw [List.nil_append, spell_nesting] at hcontext
  rw [hcontext, Nest.settled, bind_assoc, bind_assoc]
  congr 1
  funext r
  obtain ⟨buffer, _ | fault⟩ := r <;> rfl

/-- **A group without dice and its value are interchangeable** behind a front. -/
theorem only_total_exchange {inside : Text} (h : 'd' ∉ inside) {somewhere : Tray τ} {value : UInt64}
    (hvalue : ((reduce inside).run somewhere).result = .ok value) (front rest : Text) :
    (resolveGroups (front ++ '(' :: (inside ++ ')' :: rest)) >>= Resolution.total : Play σ UInt64).only Event.isRoll =
      (resolveGroups (front ++ (Numeral.write value.toNat ++ rest)) >>= Resolution.total).only Event.isRoll := by
  rw [total_behind, total_behind, Play.only_bind, Play.only_bind]
  refine Play.bind_congr_of_yields ((yields_settled front).only Event.isRoll) fun settled hloose => ?_
  -- behind a loose text the group is the leftmost one
  have hfind := Group.find?_of_loose hloose (not_isParen_of_total hvalue) rest
  rw [only_total_of_group hfind, only_reduce_of_total h hvalue, pure_bind, Group.replace, List.append_assoc]

/-- **A group without dice may be exchanged for its value** behind any front and in front of any rest: the same result,
be it a fault, the same rolls of dice, and the same tray behind them. -/
theorem evaluate_exchange {inside : Text} (h : 'd' ∉ inside) {somewhere : Tray τ} {value : UInt64}
    (hvalue : ((reduce inside).run somewhere).result = .ok value) (front rest : Text) (tray : Tray σ) :
    ((evaluate (front ++ '(' :: (inside ++ ')' :: rest))).run tray).Agrees
      ((evaluate (front ++ (Numeral.write value.toNat ++ rest))).run tray) := by
  have hinside : unquote inside = inside := (yields_reduce inside somewhere value hvalue).unquote_eq
  have hwrite : unquote (Numeral.write value.toNat) = Numeral.write value.toNat :=
    (yields_reduce _ somewhere value (by rw [reduce_write]; rfl)).unquote_eq
  have hgrouped : unquote (front ++ '(' :: (inside ++ ')' :: rest)) =
      unquote front ++ '(' :: (inside ++ ')' :: unquote rest) := by
    conv => rhs; rw [← hinside]
    simp [unquote]
  have hplain : unquote (front ++ (Numeral.write value.toNat ++ rest)) =
      unquote front ++ (Numeral.write value.toNat ++ unquote rest) := by
    conv => rhs; rw [← hwrite]
    simp [unquote]
  refine Play.agrees_of_only_eq ?_ tray
  rw [only_evaluate, only_evaluate, hgrouped, hplain, only_total_exchange h hvalue]

/-- The group of `)(2d3)d(7-2*3)+5` that has no dice may be exchanged for `1`, unmatched parenthesis and all. -/
theorem evaluate_exchange_cycle :
    'd' ∉ "7-2*3".toList ∧
    ((reduce "7-2*3".toList).run (⟨⟨[1], 0⟩, 0, none⟩ : Tray Cycle)).result = .ok 1 ∧
    ((evaluate (")(2d3)d".toList ++ '(' :: ("7-2*3".toList ++ ')' :: "+5".toList))).run
        (⟨⟨[1, 2, 5], 0⟩, 0, some 6⟩ : Tray Cycle)).Agrees
      ((evaluate (")(2d3)d".toList ++ (Numeral.write (1 : UInt64).toNat ++ "+5".toList))).run
        ⟨⟨[1, 2, 5], 0⟩, 0, some 6⟩) := by
  have hd : 'd' ∉ "7-2*3".toList := by decide
  have hvalue : ((reduce "7-2*3".toList).run (⟨⟨[1], 0⟩, 0, none⟩ : Tray Cycle)).result = .ok 1 := by
    -- the text is that of a chain, whose value is worked out
    have hchain : (reduce _ : Play Cycle UInt64).mute = _ := Chain.mute_reduce_text
      (((Chain.single (.atom (.ofNat 7))).snoc .subtract (.atom (.ofNat 2))).snoc .multiply (.atom (.ofNat 3)))
    exact congrArg (fun play => (play.run ⟨⟨[1], 0⟩, 0, none⟩).result) hchain
  exact ⟨hd, hvalue, evaluate_exchange hd hvalue _ _ _⟩

/-! ## Parentheses around a text -/

/-- The text in parentheses. -/
def parenthesized (t : Text) : Text := '(' :: (t ++ [')'])

/-- **One group around a nest in which all parentheses match is resolved last**, and leaves the total of the nest. -/
theorem only_total_group {n : Nest} (h : n.Closed) :
    (resolveGroups (parenthesized n.spell) >>= Resolution.total : Play σ UInt64).only Event.isRoll =
      (resolveGroups n.spell >>= Resolution.total).only Event.isRoll := by
  have hclosed : (Nest.empty.group n).Closed := ⟨trivial, h⟩
  have hspell : parenthesized n.spell = (Nest.empty.group n).spell := rfl
  rw [hspell, total_of_closed hclosed, total_of_closed h, Nest.settled_group, Nest.settled_empty, pure_bind]
  simp only [bind_assoc, pure_bind, List.nil_append, reduce_write, Play.only_bind, Play.only_tell, Event.isRoll,
    Bool.false_eq_true, if_false, Play.only_pure, bind_pure]

/-- So are any number of groups around it, by induction from the innermost one. -/
theorem only_total_iterate {n : Nest} (h : n.Closed) (k : Nat) :
    (resolveGroups (parenthesized^[k] n.spell) >>= Resolution.total : Play σ UInt64).only Event.isRoll =
      (resolveGroups n.spell >>= Resolution.total).only Event.isRoll := by
  induction k generalizing n with
  | zero => rfl
  | succ k ih =>
    have hclosed : (Nest.empty.group n).Closed := ⟨trivial, h⟩
    have hspell : parenthesized n.spell = (Nest.empty.group n).spell := rfl
    rw [Function.iterate_succ_apply, hspell, ih hclosed, ← hspell, only_total_group h]

/-- Quotes are taken out of the text within the parentheses. -/
theorem unquote_iterate (k : Nat) (t : Text) : unquote (parenthesized^[k] t) = parenthesized^[k] (unquote t) := by
  have hone : Function.Semiconj unquote parenthesized parenthesized := by
    intro t
    simp [parenthesized, unquote]
  exact hone.iterate_right k t

/-- **Parentheses around a whole instruction do nothing**, if its own parentheses are nested: the same result, be it a
fault, the same rolls of dice, and the same tray behind them. -/
theorem evaluate_parenthesized {t : Text} (h : Nested t) (k : Nat) (tray : Tray σ) :
    ((evaluate (parenthesized^[k] t)).run tray).Agrees ((evaluate t).run tray) := by
  have hunquote : Nested (unquote t) := h.filter rfl rfl
  have hnest : (nesting (unquote t)).spell = unquote t := spell_nesting _
  refine Play.agrees_of_only_eq ?_ tray
  rw [only_evaluate, only_evaluate, unquote_iterate, ← hnest, only_total_iterate (closed_nesting hunquote)]

/-- Parentheses do nothing around `2d6"+(3x)`, which cannot be reduced. -/
theorem evaluate_parenthesized_cycle :
    Nested "2d6\"+(3x)".toList ∧
    ((evaluate (parenthesized^[2] "2d6\"+(3x)".toList)).run (⟨⟨[4, 1], 0⟩, 0, some 2⟩ : Tray Cycle)).Agrees
      ((evaluate "2d6\"+(3x)".toList).run ⟨⟨[4, 1], 0⟩, 0, some 2⟩) := by
  have hnested : Nested "2d6\"+(3x)".toList := by decide
  exact ⟨hnested, evaluate_parenthesized hnested 2 _⟩

end

end TabletopDice
