import TabletopDice.Proofs.Chain
import TabletopDice.Proofs.LockStep
import TabletopDice.Proofs.Pass
import TabletopDice.Session

/-!
# The phases of a reduction

A pass starts again from the rule that is tried first, yet a reduction never comes back to a rule: first all dice are
rolled, then each operator has its phase, in the order of `Rule.priority`.

- `Past k row` says that no rule of a rank below `k` occurs in a row. A pass that uses a rule of rank `k` is made where
  `Past k` holds (`past_of_rowRedex?`), and `Past k` holds for what it leaves (`Past.rewrite`): an integer in the place of
  a redex makes no redex of an earlier rule with its neighbours;
- so what one pass cannot use, no later pass of a session can (`Past.of_mem_passes`), and the rules that the passes of a
  session use follow the order of ranks (`passes_in_phases`).
-/

namespace TabletopDice

open Lexeme

/-! ## What a phase leaves behind -/

/-- No rule of a lower rank occurs in the row. -/
def Past (k : Nat) (row : List Lexeme) : Prop := ∀ r : Rule, r.rank < k → r.find? row = none

theorem past_zero (row : List Lexeme) : Past 0 row := fun _ hr => absurd hr (Nat.not_lt_zero _)

theorem Past.mono {j k : Nat} {row : List Lexeme} (h : Past k row) (hjk : j ≤ k) : Past j row :=
  fun r hr => h r (Nat.lt_of_lt_of_le hr hjk)

/-- The first rule that occurs is used. -/
theorem past_of_rowRedex? {row : List Lexeme} {rule : Rule} {m : Match} (h : rowRedex? row = some (rule, m)) :
    Past rule.rank row := by
  obtain ⟨front, s, rest, hpriority, hs, hfront⟩ := List.findSome?_eq_some_iff.mp h
  obtain rfl : s = rule := by
    obtain ⟨m', -, he⟩ := Option.map_eq_some_iff.mp hs
    exact congrArg Prod.fst he
  have hnotMem : s ∉ front := fun hmem => by
    rw [hfront s hmem] at hs
    cases hs
  have hrank : s.rank = front.length := by
    rw [Rule.rank, hpriority, List.idxOf_append_of_notMem hnotMem, List.idxOf_cons_self, Nat.add_zero]
  intro r hr
  have hmem : r ∈ front := by
    by_contra hr'
    rw [hrank, Rule.rank, hpriority, List.idxOf_append_of_notMem hr'] at hr
    omega
  simpa using hfront r hmem

/-- The rules tried before another one have no mark in a written integer. -/
theorem mark_not_mem_integerRow {r rule : Rule} (h : r.rank < rule.rank) (value : Int) :
    .mark r.mark ∉ integerRow value := by
  have hminus : r.mark ≠ '-' := Rule.mark_ne_of_rank_lt (Nat.lt_of_lt_of_le h rule.rank_le_subtract)
  cases value <;> simp [integerRow, hminus]

/-- What is not in the front of a list stands behind it. -/
theorem split_behind {α : Type} {x : α} {front after u v : List α} (hx : x ∉ front) (h : front ++ after = u ++ x :: v) :
    ∃ w, after = w ++ x :: v ∧ u = front ++ w := by
  induction front generalizing u with
  | nil => exact ⟨u, h, rfl⟩
  | cons y front ih =>
    rcases u with _ | ⟨z, u⟩
    · exact absurd (List.cons.inj h).1 fun hy => hx (by simp [hy])
    · obtain ⟨rfl, hrest⟩ := List.cons.inj h
      obtain ⟨w, hafter, rfl⟩ := ih (fun hm => hx (List.mem_cons_of_mem _ hm)) hrest
      exact ⟨w, hafter, rfl⟩

/-- What is not in the middle of a list stands in front of it or behind it. -/
theorem split_around {α : Type} {x : α} {before middle after u v : List α} (hx : x ∉ middle)
    (h : before ++ middle ++ after = u ++ x :: v) :
    (∃ w, before = u ++ x :: w ∧ v = w ++ middle ++ after) ∨ ∃ w, after = w ++ x :: v ∧ u = before ++ middle ++ w := by
  induction before generalizing u with
  | nil => exact Or.inr (split_behind hx h)
  | cons y before ih =>
    rcases u with _ | ⟨z, u⟩
    · obtain ⟨rfl, rfl⟩ := List.cons.inj h
      exact Or.inl ⟨before, rfl, rfl⟩
    · obtain ⟨rfl, hrest⟩ := List.cons.inj h
      rcases ih hrest with ⟨w, rfl, hv⟩ | ⟨w, hafter, rfl⟩
      · exact Or.inl ⟨w, rfl, hv⟩
      · exact Or.inr ⟨w, hafter, rfl⟩

/-- **An integer in the place of an occurrence makes no occurrence of a rule that is tried before.** -/
theorem Past.rewrite {rule : Rule} {row : List Lexeme} {m : Match} (h : Past rule.rank row)
    (hfind : rule.find? row = some m) (value : Int) : Past rule.rank (m.rewrite value) := by
  intro r hr
  by_contra hocc
  obtain ⟨u, ds, v, hsplit, hu⟩ := Rule.find?_ne_none_iff.mp hocc
  have hredex := Rule.redex_of_find? hfind
  have hrow := Rule.row_eq_of_find? hfind
  refine Rule.find?_ne_none_iff.mpr ?_ (h r hr)
  rcases split_around (mark_not_mem_integerRow hr value) hsplit with ⟨w, hbefore, hv⟩ | ⟨w, hafter, rfl⟩
  · rcases w with _ | ⟨x, w⟩
    · -- the mark stands right in front of the integer, and so in front of a redex that is no dice
      have hdice : rule ≠ .dice := by rintro rfl; exact Nat.not_lt_zero _ hr
      obtain ⟨ds', hds'⟩ := hredex.head?_of_ne_dice hdice
      obtain ⟨rest, hmatched⟩ := List.head?_eq_some_iff.mp hds'
      exact ⟨u, ds', rest ++ m.after, by simp [hrow, hbefore, hmatched], hu⟩
    · obtain ⟨rfl, -⟩ := List.cons.inj hv
      exact ⟨u, ds, w ++ m.matched ++ m.after, by simp [hrow, hbefore], hu⟩
  · -- the mark stands behind the integer, and so behind the redex
    refine ⟨m.before ++ m.matched ++ w, ds, v, by simp [hrow, hafter], hu.imp_right fun hlast => ?_⟩
    obtain ⟨ds', hds'⟩ := hredex.getLast?
    rw [List.getLast?_append] at hlast ⊢
    cases hw : w.getLast? with
    | none => exact ⟨ds', by simp [List.getLast?_append, hds']⟩
    | some y => simpa [hw] using hlast

/-! ## The passes of a session -/

/-- The rule that a pass has used, if it has replaced something. -/
def ruleOf? : Except Fault Answer → Option Rule
  | .ok (.pass (.replaced rule _)) => some rule
  | _ => none

section

variable {σ : Type} [Roller σ]

/-- So many passes over the buffer of a session, also behind those that fail. -/
def Session.passes (session : Session σ) (n : Nat) : List (Except Fault Answer × Session σ) :=
  session.run (List.replicate n .pass)

/-- The passes behind a pass are those of the session that it leaves. -/
theorem Session.passes_eq_append {session : Session σ} {n : Nat} {front rest : List (Except Fault Answer × Session σ)}
    {taken : Except Fault Answer × Session σ} (h : session.passes n = front ++ taken :: rest) :
    (∃ before : Session σ, taken = before.step .pass) ∧ ∃ k, rest = taken.2.passes k := by
  induction n generalizing session front with
  | zero => exact absurd h.symm (by simp [passes, run])
  | succ n ih =>
    have hsucc : session.passes (n + 1) = session.step .pass :: (session.step .pass).2.passes n := rfl
    rw [hsucc] at h
    rcases front with _ | ⟨first, front⟩
    · obtain ⟨rfl, rfl⟩ := List.cons.inj h
      exact ⟨⟨session, rfl⟩, n, rfl⟩
    · exact ih (List.cons.inj h).2

/-- **A pass leaves an integer in the place of a redex**, or fails at it and keeps the buffer; without a redex it changes
nothing. -/
theorem Session.step_pass_cases (session : Session σ) :
    (∃ rule m value, rowRedex? (lexemes session.buffer) = some (rule, m) ∧
      (session.step .pass).1 = .ok (.pass (.replaced rule (m.replace value))) ∧
      lexemes (session.step .pass).2.buffer = m.rewrite value) ∨
    (∃ rule m fault, rowRedex? (lexemes session.buffer) = some (rule, m) ∧
      (session.step .pass).1 = .error fault ∧ (session.step .pass).2.buffer = session.buffer) ∨
    (session.step .pass).1 = .ok (.pass (if isNumeral session.buffer then .finished else .stuck)) ∧
      (session.step .pass).2 = session := by
  obtain ⟨tray, buffer⟩ := session
  simp only [step]
  cases hredex : redex? buffer with
  | none =>
    refine Or.inr (Or.inr ?_)
    rw [run_onePass_of_no_redex hredex]
    split <;> exact ⟨rfl, rfl⟩
  | some redex =>
    obtain ⟨rule, m⟩ := redex
    rw [run_onePass_of_redex hredex]
    rcases (contract rule m).run tray with ⟨fault | value, tray', events⟩
    · exact Or.inr (Or.inl ⟨rule, m, fault, hredex, rfl, rfl⟩)
    · exact Or.inl ⟨rule, m, value, hredex, rfl, lexemes_replace (occurrence_of_redex? hredex) value⟩

/-- A pass that fails has a redex, and keeps the buffer. -/
theorem Session.redex_of_step_pass_error {session : Session σ} {fault : Fault}
    (h : (session.step .pass).1 = .error fault) :
    (session.step .pass).2.buffer = session.buffer ∧ ∃ rule m, redex? session.buffer = some (rule, m) := by
  rcases session.step_pass_cases with ⟨_, _, _, -, hanswer, -⟩ | ⟨rule, m, _, hredex, -, hbuffer⟩ | ⟨hanswer, -⟩
  · rw [hanswer] at h
    cases h
  · exact ⟨hbuffer, rule, m, hredex⟩
  · rw [hanswer] at h
    cases h

/-- A pass uses no rule that does not occur any more, and leaves no occurrence of one that is tried before its own. -/
theorem Past.step_pass {session : Session σ} {k : Nat} (h : Past k (lexemes session.buffer)) :
    Past k (lexemes (session.step .pass).2.buffer) ∧ ∀ rule, ruleOf? (session.step .pass).1 = some rule →
      k ≤ rule.rank ∧ Past rule.rank (lexemes (session.step .pass).2.buffer) := by
  rcases session.step_pass_cases with
    ⟨rule, m, value, hredex, hanswer, hrow⟩ | ⟨_, _, _, -, hanswer, hbuffer⟩ | ⟨hanswer, hsession⟩
  · have hfind := find?_of_rowRedex? hredex
    have hrank : k ≤ rule.rank := by
      by_contra hlt
      rw [h rule (by omega)] at hfind
      cases hfind
    have hpast : Past rule.rank (m.rewrite value) := (past_of_rowRedex? hredex).rewrite hfind value
    rw [hrow, hanswer]
    refine ⟨hpast.mono hrank, fun r hr => ?_⟩
    obtain rfl := Option.some.inj hr
    exact ⟨hrank, hpast⟩
  · rw [hbuffer, hanswer]
    exact ⟨h, fun _ hr => by cases hr⟩
  · rw [hsession, hanswer]
    refine ⟨h, fun _ hr => ?_⟩
    split at hr <;> cases hr

/-- What does not occur any more is not used by any later pass. -/
theorem Past.of_mem_passes {session : Session σ} {k n : Nat} (h : Past k (lexemes session.buffer)) :
    ∀ taken ∈ session.passes n,
      Past k (lexemes taken.2.buffer) ∧ ∀ rule, ruleOf? taken.1 = some rule → k ≤ rule.rank := by
  induction n generalizing session with
  | zero => exact fun taken htaken => by cases htaken
  | succ n ih =>
    intro taken htaken
    obtain ⟨hkeep, huse⟩ := h.step_pass
    rcases List.mem_cons.mp htaken with rfl | hlater
    · exact ⟨hkeep, fun rule hrule => (huse rule hrule).1⟩
    · exact ih hkeep taken hlater

/-- Without dice, passes do not touch the tray. -/
theorem Past.tray_of_mem_passes {session : Session σ} {n : Nat}
    (h : Past (Rule.dice.rank + 1) (lexemes session.buffer)) :
    ∀ taken ∈ session.passes n, taken.2.tray = session.tray := by
  induction n generalizing session with
  | zero => exact fun taken htaken => by cases htaken
  | succ n ih =>
    intro taken htaken
    have hstep : (session.step .pass).2.tray = session.tray := by
      obtain ⟨tray, buffer⟩ := session
      show ((onePass buffer).run tray).tray = tray
      cases hredex : redex? buffer with
      | none => rw [run_onePass_of_no_redex hredex]
      | some redex =>
        obtain ⟨rule | op, m⟩ := redex
        · have hfind := occurrence_of_redex? hredex
          have hnone := h .dice (Nat.lt_succ_self _)
          rw [Rule.occurrence?, hnone] at hfind
          cases hfind
        · exact tray_onePass_of_binary hredex tray
    rcases List.mem_cons.mp htaken with rfl | hlater
    · exact hstep
    · rw [ih h.step_pass.1 taken hlater, hstep]

/-- The rules of the passes of a session follow the order of ranks. -/
theorem Session.pairwise_rank_passes (session : Session σ) (n : Nat) :
    ((session.passes n).filterMap fun taken => ruleOf? taken.1).Pairwise fun r s => r.rank ≤ s.rank := by
  induction n generalizing session with
  | zero => exact .nil
  | succ n ih =>
    have hsucc : session.passes (n + 1) = session.step .pass :: (session.step .pass).2.passes n := rfl
    rw [hsucc, List.filterMap_cons]
    split
    · exact ih _
    · rename_i rule hrule
      refine List.pairwise_cons.mpr ⟨fun later hlater => ?_, ih _⟩
      obtain ⟨taken, htaken, he⟩ := List.mem_filterMap.mp hlater
      have hpast := ((past_zero (lexemes session.buffer)).step_pass.2 rule hrule).2
      exact (hpast.of_mem_passes taken htaken).2 later he

/-- Behind a pass that has used a rule, nothing occurs that is tried before it. -/
theorem Session.past_of_passes_eq {session : Session σ} {n : Nat} {front rest : List (Except Fault Answer × Session σ)}
    {taken : Except Fault Answer × Session σ} {rule : Rule} (h : session.passes n = front ++ taken :: rest)
    (hrule : ruleOf? taken.1 = some rule) :
    Past rule.rank (lexemes taken.2.buffer) ∧ ∃ k, rest = taken.2.passes k := by
  obtain ⟨⟨before, rfl⟩, hrest⟩ := passes_eq_append h
  exact ⟨((past_zero (lexemes before.buffer)).step_pass.2 rule hrule).2, hrest⟩

/-- **Reductions run in phases.** The rules that the passes of a session use follow the order in which rules are tried.
Once a rule has been used, none that is tried before it occurs in the buffer, and once that was an operator, no die is
rolled. Where a pass fails, no rule that is tried before its own is left in the buffer. -/
theorem passes_in_phases (session : Session σ) (n : Nat) :
    ((session.passes n).filterMap fun taken => ruleOf? taken.1).Pairwise (fun r s => r.rank ≤ s.rank) ∧
      (∀ front taken rest rule, session.passes n = front ++ taken :: rest → ruleOf? taken.1 = some rule →
        (∀ later ∈ taken :: rest, ∀ r : Rule, r.rank < rule.rank → r.occurrence? later.2.buffer = none) ∧
          (rule ≠ .dice → ∀ later ∈ rest, later.2.tray = taken.2.tray)) ∧
      (∀ taken ∈ session.passes n, ∀ fault, taken.1 = .error fault →
        ∃ rule m, redex? taken.2.buffer = some (rule, m) ∧
          ∀ r : Rule, r.rank < rule.rank → r.occurrence? taken.2.buffer = none) := by
  refine ⟨session.pairwise_rank_passes n, fun front taken rest rule hsplit hrule => ?_, fun taken htaken fault hfault => ?_⟩
  · obtain ⟨hpast, k, rfl⟩ := Session.past_of_passes_eq hsplit hrule
    refine ⟨fun later hlater r hr => ?_, fun hdice => ?_⟩
    · rcases List.mem_cons.mp hlater with rfl | hlater
      · exact hpast r hr
      · exact (hpast.of_mem_passes later hlater).1 r hr
    · have hrank : Rule.dice.rank < rule.rank := Rule.rank_lt_of_ne (Nat.zero_le _) (Ne.symm hdice)
      exact (hpast.mono hrank).tray_of_mem_passes
  · obtain ⟨front, rest, hsplit⟩ := List.append_of_mem htaken
    obtain ⟨⟨before, rfl⟩, -⟩ := Session.passes_eq_append hsplit
    obtain ⟨hbuffer, rule, m, hredex⟩ := Session.redex_of_step_pass_error hfault
    rw [hbuffer]
    exact ⟨rule, m, hredex, past_of_rowRedex? hredex⟩

end
end TabletopDice
