import TabletopDice.Proofs.Pass
import TabletopDice.Proofs.Places
import TabletopDice.Proofs.Resolution

/-!
# Evaluation on strings of bytes

The machine of `Reduction` and `Evaluation`, on strings in UTF-8: it finds its places by tokens, cuts strings and writes
to them at byte offsets, and subtracts in 64 bits. Each of these may panic.

- a `Guarded` play has no value once it has panicked. `Guarded.Safe` says that it never panics, and that it comes to
  what a play comes to, with the same tray and the same events;
- `guardedPass`, `guardedReduce`, `guardedResolve` and `guardedEvaluate` are the machine. They end because what has been
  written over a string leaves fewer live lexemes, or a `(` less;
- none of them panics, on any string (`guarded_safe`).
-/

namespace TabletopDice

/-! ## Plays that may panic -/

/-- A play that may panic: it then has no value. -/
abbrev Guarded (σ α : Type) : Type := OptionT (Play σ) α

namespace Guarded

variable {σ α β : Type}

/-- The play that never panics. -/
def lift (play : Play σ α) : Guarded σ α := OptionT.lift play

/-- Panics if there is no value. -/
def orPanic (value : Option α) : Guarded σ α := OptionT.mk (pure value)

theorem orPanic_some (a : α) : (orPanic (some a) : Guarded σ α) = pure a := rfl

theorem orPanic_attach {value : Option α} {a : α} (h : value = some a) :
    (orPanic value.attach : Guarded σ { a // value = some a }) = pure ⟨a, h⟩ := by
  subst h
  rfl

/-- The guarded play with its result, be it a failure, as the value. A panic stays one. -/
def attempt (guarded : Guarded σ α) : Guarded σ (Except Fault α) :=
  OptionT.mk do
    match ← Play.attempt guarded.run with
    | .ok value => return value.map .ok
    | .error fault => return some (.error fault)

/-- The guarded play never panics, and is the play. -/
def Safe (guarded : Guarded σ α) (play : Play σ α) : Prop := guarded.run = some <$> play

theorem safe_pure (a : α) : Safe (pure a : Guarded σ α) (pure a) := by
  rw [Safe, map_pure]
  rfl

theorem safe_lift (play : Play σ α) : (lift play).Safe play := by
  rw [Safe, lift, OptionT.lift, map_eq_pure_bind]
  rfl

/-- Safe plays in a row are safe. -/
theorem Safe.bind {guarded : Guarded σ α} {play : Play σ α} {next : α → Guarded σ β} {next' : α → Play σ β}
    (h : guarded.Safe play) (hnext : ∀ a, (next a).Safe (next' a)) : (guarded >>= next).Safe (play >>= next') := by
  rw [Safe, OptionT.run_bind, h, Option.elimM, bind_map_left, map_bind]
  exact bind_congr hnext

theorem Safe.attempt {guarded : Guarded σ α} {play : Play σ α} (h : guarded.Safe play) :
    guarded.attempt.Safe play.attempt := by
  unfold Safe at h ⊢
  ext tray
  rw [Guarded.attempt, OptionT.run_mk, h, map_eq_pure_bind, map_eq_pure_bind]
  simp only [Play.run_bind, Play.run_attempt]
  rcases play.run tray with ⟨_ | a, tray', events⟩
  · rfl
  · simp [Outcome.after]

end Guarded

open Guarded

/-! ## The machine -/

/-- The first rule, in the order of priority, whose tokens occur in a list, and where. -/
def locateRedex? (tokens : List Token) : Option (Rule × Span) :=
  Rule.priority.findSome? fun rule => (rule.locate? tokens).map fun span => (rule, span)

theorem locateRedex?_tokens (t : Text) : locateRedex? (tokens t) = (redex? t).map fun r => (r.1, r.2.span) := by
  rw [locateRedex?, redex?, List.map_findSome?]
  congr 1
  funext rule
  rw [Function.comp_apply, Rule.locate?_tokens, Rule.occurrence?]
  cases rule.find? (lexemes t) <;> rfl

/-- A difference in 64 bits; there is none below zero. -/
def difference? (l r : UInt64) : Option UInt64 := if r ≤ l then some (l - r) else none

section

variable {σ : Type}

/-- The value of an operator at two numbers. The larger number is the one that is subtracted from. -/
def Operator.guardedApply : Operator → UInt64 → UInt64 → Guarded σ Int
  | subtract, l, r =>
    if r ≤ l then do
      let difference ← orPanic (difference? l r)
      return difference.toNat
    else do
      let difference ← orPanic (difference? r l)
      return -difference.toNat
  | op, l, r => lift (Play.ofExcept (op.apply l r))

/-- Neither difference falls below zero. -/
theorem Operator.safe_guardedApply (op : Operator) (l r : UInt64) :
    (op.guardedApply l r : Guarded σ Int).Safe (Play.ofExcept (op.apply l r)) := by
  cases op with
  | subtract =>
    rw [Operator.guardedApply]
    split
    · rename_i h
      have hvalue : ((l - r).toNat : Int) = (l.toNat : Int) - r.toNat := by
        have hle : r.toNat ≤ l.toNat := h
        rw [UInt64.toNat_sub_of_le _ _ h]
        omega
      rw [difference?, if_pos h, orPanic_some, pure_bind, hvalue]
      exact safe_pure _
    · rename_i h
      have hle : l ≤ r := UInt64.le_of_lt (UInt64.not_le.mp h)
      have hvalue : -((r - l).toNat : Int) = (l.toNat : Int) - r.toNat := by
        have hle' : l.toNat ≤ r.toNat := hle
        rw [UInt64.toNat_sub_of_le _ _ hle]
        omega
      rw [difference?, if_pos hle, orPanic_some, pure_bind, hvalue]
      exact safe_pure _
  | multiply => exact safe_lift _
  | divide => exact safe_lift _
  | add => exact safe_lift _

/-- Writes an integer over the span of a string. -/
def overwrite (s : String) (span : Span) (value : Int) :
    Guarded σ { next : String // span.splice? s (String.ofList (Numeral.writeInt value)) = some next } :=
  orPanic (span.splice? s (String.ofList (Numeral.writeInt value))).attach

variable [Roller σ]

/-- The value of a text under a rule. -/
def Rule.guardedValueOf : Rule → Text → Guarded σ Int
  | dice, t => lift (Rule.dice.valueOf t)
  | binary op, t => do
    let (l, r) ← lift (Play.ofExcept (op.operands t))
    op.guardedApply l r

/-- Puts the value of what stands at a span in its place. -/
def guardedContract (s : String) (rule : Rule) (span : Span) : Guarded σ
    { next : String // ∃ value, span.splice? s (String.ofList (Numeral.writeInt value)) = some next } := do
  let text ← orPanic (span.slice? s)
  let value ← rule.guardedValueOf text.toList
  lift (Play.tell (.substituting rule text.toList value))
  let next ← overwrite s span value
  lift (Play.tell (.reduced next.val.toList))
  return ⟨next.val, value, next.property⟩

/-- One pass. -/
def guardedPass (s : String) : Guarded σ Pass :=
  if isNumeral s.toList then pure .finished
  else match locateRedex? (tokens s.toList) with
    | none => pure .stuck
    | some (rule, span) => do
      let next ← guardedContract s rule span
      return .replaced rule next.val.toList

/-- What is written over a redex leaves fewer live lexemes. -/
theorem live_lt_of_splice? {s next : String} {rule : Rule} {span : Span} {value : Int}
    (h : locateRedex? (tokens s.toList) = some (rule, span))
    (hnext : span.splice? s (String.ofList (Numeral.writeInt value)) = some next) :
    live (lexemes next.toList) < live (lexemes s.toList) := by
  rw [locateRedex?_tokens] at h
  obtain ⟨⟨_, m⟩, hm, heq⟩ := Option.map_eq_some_iff.mp h
  obtain ⟨rfl, rfl⟩ := Prod.mk.injEq .. ▸ heq
  have hsplice := splice?_of_occurrence? (occurrence_of_redex? hm) value
  rw [String.ofList_toList] at hsplice
  obtain rfl := Option.some.inj (hnext.symm.trans hsplice)
  rw [String.toList_ofList]
  exact live_replace_lt (occurrence_of_redex? hm) value

/-- Passes until the string is one numeral. -/
def guardedReduce (s : String) : Guarded σ UInt64 :=
  if isNumeral s.toList then lift (Play.ofExcept (readTotal s.toList))
  else match _ : locateRedex? (tokens s.toList) with
    | none => lift (Play.fail (.malformed s.toList))
    | some (rule, span) => do
      let next ← guardedContract s rule span
      guardedReduce next.val
termination_by live (lexemes s.toList)
decreasing_by
  obtain ⟨value, hnext⟩ := next.property
  exact live_lt_of_splice? ‹_› hnext

/-- What is written over a group takes a `(` away. -/
theorem count_lt_of_splice? {s next : String} {span : Span} {value : UInt64}
    (h : locateGroup? none (tokens s.toList) = some span)
    (hnext : span.splice? s (String.ofList (Numeral.writeInt value.toNat)) = some next) :
    next.toList.count '(' < s.toList.count '(' := by
  rw [locateGroup?_tokens] at h
  obtain ⟨g, hg, rfl⟩ := Option.map_eq_some_iff.mp h
  have hsplice := splice?_of_find? hg value
  rw [String.ofList_toList] at hsplice
  obtain rfl := Option.some.inj (hnext.symm.trans hsplice)
  rw [String.toList_ofList]
  exact Group.count_replace_lt hg value

/-- Replaces the groups of a string by their values. -/
def guardedResolve (s : String) : Guarded σ Resolution :=
  match _ : locateGroup? none (tokens s.toList) with
  | none => return ⟨s.toList, none⟩
  | some span => do
    let inside ← orPanic (span.inside.slice? s)
    match ← (guardedReduce inside).attempt with
    | .error fault => return ⟨s.toList, some fault⟩
    | .ok value =>
      -- the group is cut out with its parentheses only to be told
      let group ← orPanic (span.slice? s)
      lift (Play.tell (.resolvedGroup group.toList value))
      let next ← overwrite s span value.toNat
      guardedResolve next.val
termination_by s.toList.count '('
decreasing_by exact count_lt_of_splice? ‹_› next.property

/-- The total of a string whose groups have been resolved. -/
def Resolution.guardedTotal : Resolution → Guarded σ UInt64
  | ⟨_, some fault⟩ => lift (Play.fail fault)
  | ⟨buffer, none⟩ => guardedReduce (String.ofList buffer)

/-- The total of an instruction, counting its dice from zero. -/
def guardedEvaluate (instruction : String) : Guarded σ UInt64 := do
  lift Play.reset
  let resolution ← guardedResolve (String.ofList (unquote instruction.toList))
  let total ← resolution.guardedTotal
  let booked ← lift Play.booked
  lift (Play.tell (.evaluated instruction.toList total booked))
  return total

/-! ## The machine is safe -/

theorem Rule.safe_guardedValueOf (rule : Rule) (t : Text) :
    (rule.guardedValueOf t : Guarded σ Int).Safe (rule.valueOf t) := by
  cases rule with
  | dice => exact safe_lift _
  | binary op =>
    rw [valueOf, Operator.valueOf, Play.ofExcept_bind]
    exact (safe_lift _).bind fun parts => op.safe_guardedApply parts.1 parts.2

variable {α : Type}

/-- Behind what is written over an occurrence, the string with its value is left. -/
theorem safe_guardedContract_bind {t : Text} {rule : Rule} {m : Match} (h : rule.occurrence? t = some m)
    {k : String → Guarded σ α} {next : Int → Play σ α}
    (hk : ∀ value, (k (String.ofList (m.replace value))).Safe (next value)) :
    (guardedContract (String.ofList t) rule m.span >>= fun written => k written.val).Safe
      (contract rule m >>= next) := by
  rw [guardedContract, contract, slice?_of_occurrence? h, orPanic_some, pure_bind, String.toList_ofList]
  simp only [bind_assoc, pure_bind]
  refine (rule.safe_guardedValueOf m.text).bind fun value => (safe_lift _).bind fun _ => ?_
  rw [overwrite, orPanic_attach (splice?_of_occurrence? h value), pure_bind, String.toList_ofList]
  exact (safe_lift _).bind fun _ => hk value

theorem safe_guardedPass (t : Text) : (guardedPass (String.ofList t) : Guarded σ Pass).Safe (onePass t) := by
  rw [guardedPass, onePass, String.toList_ofList, locateRedex?_tokens]
  split
  · exact safe_pure _
  · cases hr : redex? t with
    | none => exact safe_pure _
    | some redex =>
      obtain ⟨rule, m⟩ := redex
      refine safe_guardedContract_bind (k := fun s => pure (Pass.replaced rule s.toList)) (occurrence_of_redex? hr)
        fun value => ?_
      rw [String.toList_ofList]
      exact safe_pure _

/-- A reduction goes on from what is left at its redex. -/
theorem guardedReduce_of_redex {t : Text} {rule : Rule} {m : Match} (h : redex? t = some (rule, m)) :
    (guardedReduce (String.ofList t) : Guarded σ UInt64) =
      guardedContract (String.ofList t) rule m.span >>= fun written => guardedReduce written.val := by
  have hnum : isNumeral (String.ofList t).toList = false := by
    rw [String.toList_ofList]
    exact isNumeralRow_of_rowRedex? h
  have hlocate : locateRedex? (tokens (String.ofList t).toList) = some (rule, m.span) := by
    rw [locateRedex?_tokens, String.toList_ofList, h]
    rfl
  rw [guardedReduce, hnum]
  simp only [Bool.false_eq_true, if_false]
  split
  · rename_i hnone
    rw [hlocate] at hnone
    cases hnone
  · rename_i hsome
    rw [hlocate] at hsome
    obtain ⟨rfl, rfl⟩ := Prod.mk.injEq .. ▸ Option.some.inj hsome
    rfl

/-- Without a redex, a reduction ends. -/
theorem guardedReduce_of_no_redex {t : Text} (h : redex? t = none) :
    (guardedReduce (String.ofList t) : Guarded σ UInt64) =
      if isNumeral t then lift (Play.ofExcept (readTotal t)) else lift (Play.fail (.malformed t)) := by
  have hlocate : locateRedex? (tokens (String.ofList t).toList) = none := by
    rw [locateRedex?_tokens, String.toList_ofList, h]
    rfl
  rw [guardedReduce, String.toList_ofList]
  split
  · rfl
  · split
    · rfl
    · rename_i hsome
      rw [String.toList_ofList] at hlocate
      rw [hlocate] at hsome
      cases hsome

theorem safe_guardedReduce (t : Text) : (guardedReduce (String.ofList t) : Guarded σ UInt64).Safe (reduce t) := by
  induction t using buffer_induction with
  | normal t hredex =>
    rw [guardedReduce_of_no_redex hredex, reduce_of_no_redex hredex]
    split <;> exact safe_lift _
  | redex t rule m hredex ih =>
    rw [guardedReduce_of_redex hredex, reduce_of_redex hredex]
    exact safe_guardedContract_bind (occurrence_of_redex? hredex) ih

/-- A string without a group stays. -/
theorem guardedResolve_of_loose {t : Text} (h : Loose t) :
    (guardedResolve (String.ofList t) : Guarded σ Resolution) = pure ⟨t, none⟩ := by
  have hlocate : locateGroup? none (tokens (String.ofList t).toList) = none := by
    rw [locateGroup?_tokens, String.toList_ofList, Group.find?_eq_none_iff.mpr h]
    rfl
  rw [guardedResolve]
  split
  · rw [String.toList_ofList]
  · rename_i hsome
    rw [hlocate] at hsome
    cases hsome

/-- What is cut out of a string with a group is its inside and the group, and its value is written over the group. -/
theorem guardedResolve_of_group {t : Text} {g : Group} (h : Group.find? t = some g) :
    (guardedResolve (String.ofList t) : Guarded σ Resolution) =
      (guardedReduce (String.ofList g.inside)).attempt >>= fun result =>
        match result with
        | .error fault => pure ⟨t, some fault⟩
        | .ok value =>
          lift (Play.tell (.resolvedGroup g.text value)) >>= fun _ =>
            guardedResolve (String.ofList (g.replace value)) := by
  have hlocate : locateGroup? none (tokens (String.ofList t).toList) = some g.span := by
    rw [locateGroup?_tokens, String.toList_ofList, h]
    rfl
  rw [guardedResolve]
  split
  · rename_i hnone
    rw [hlocate] at hnone
    cases hnone
  · rename_i hsome
    rw [hlocate] at hsome
    obtain rfl := Option.some.inj hsome
    rw [slice?_inside_of_find? h, slice?_of_find? h, orPanic_some, pure_bind, String.toList_ofList]
    refine bind_congr fun result => ?_
    cases result with
    | error fault => rfl
    | ok value =>
      simp only [orPanic_some, pure_bind, overwrite, orPanic_attach (splice?_of_find? h value), String.toList_ofList]

theorem safe_guardedResolve (t : Text) :
    (guardedResolve (String.ofList t) : Guarded σ Resolution).Safe (resolveGroups t) := by
  induction t using group_induction with
  | loose t hloose =>
    rw [guardedResolve_of_loose hloose, resolveGroups_of_loose hloose]
    exact safe_pure _
  | group t g hfind ih =>
    rw [guardedResolve_of_group hfind, resolveGroups_of_group hfind]
    refine (safe_guardedReduce g.inside).attempt.bind fun result => ?_
    cases result with
    | error fault => exact safe_pure _
    | ok value => exact (safe_lift _).bind fun _ => ih value

theorem Resolution.safe_guardedTotal (r : Resolution) : (r.guardedTotal : Guarded σ UInt64).Safe r.total := by
  obtain ⟨buffer, _ | fault⟩ := r
  · exact safe_guardedReduce buffer
  · exact safe_lift _

theorem safe_guardedEvaluate (s : String) : (guardedEvaluate s : Guarded σ UInt64).Safe (evaluate s.toList) :=
  (safe_lift _).bind fun _ => (safe_guardedResolve _).bind fun r => r.safe_guardedTotal.bind fun _ =>
    (safe_lift _).bind fun _ => (safe_lift _).bind fun _ => safe_pure _

/-- **No cut, no write and no subtraction panics**, whatever characters a string has: every place that is found is
usable, and the machine on strings is that on texts. -/
theorem guarded_safe (s : String) :
    (∀ rule span, Rule.locate? rule (tokens s.toList) = some span → span.Usable s) ∧
      (∀ span, locateGroup? none (tokens s.toList) = some span → span.Usable s ∧ span.inside.Usable s) ∧
      (∀ op l r, (Operator.guardedApply op l r : Guarded σ Int).Safe (Play.ofExcept (op.apply l r))) ∧
      (guardedPass s : Guarded σ Pass).Safe (onePass s.toList) ∧
      (guardedReduce s : Guarded σ UInt64).Safe (reduce s.toList) ∧
      (guardedResolve s : Guarded σ Resolution).Safe (resolveGroups s.toList) ∧
      (guardedEvaluate s : Guarded σ UInt64).Safe (evaluate s.toList) := by
  have hpass := safe_guardedPass (σ := σ) s.toList
  have hreduce := safe_guardedReduce (σ := σ) s.toList
  have hresolve := safe_guardedResolve (σ := σ) s.toList
  rw [String.ofList_toList] at hpass hreduce hresolve
  exact ⟨fun _ _ => usable_of_locate?, fun _ => usable_of_locateGroup?, Operator.safe_guardedApply, hpass, hreduce,
    hresolve, safe_guardedEvaluate s⟩

end
end TabletopDice
