import Mathlib.Data.List.Basic
import TabletopDice.Proofs.Play
import TabletopDice.Proofs.RowReduction

/-!
# What a pass does

- A pass over a buffer with a redex has the value of the redex, or fails as that does (`run_onePass_of_redex`). Only
  dice touch the tray (`tray_onePass_of_binary`);
- the rule of a pass is told in its events (`rulesTold_onePass`), and a reduction tells what its passes tell
  (`events_reduce`). So the rules that a reduction tells of are those of its passes (`rulesTold_reduce`).
-/

namespace TabletopDice

/-! ## Rules in events and in outcomes -/

/-- The rule of a pass, in the event that tells of it. -/
def Event.rule? : Event → Option Rule
  | substituting rule _ _ => some rule
  | _ => none

/-- The rules of passes, in the order in which the events tell of them. -/
def rulesTold (events : List Event) : List Rule := events.filterMap Event.rule?

/-- The rule that a pass has used, if it has replaced something. -/
def Outcome.rule? {σ : Type} (outcome : Outcome σ Pass) : Option Rule :=
  match outcome.result with
  | .ok (.replaced rule _) => some rule
  | _ => none

@[simp] theorem rulesTold_append (r s : List Event) : rulesTold (r ++ s) = rulesTold r ++ rulesTold s := by
  simp [rulesTold]

section

variable {σ : Type} [Roller σ]

/-! ## One pass -/

/-- The value of a text is told of by nothing but the dice that are rolled for it. -/
theorem tells_valueOf (rule : Rule) (t : Text) :
    (rule.valueOf t : Play σ Int).Tells fun event => ∃ dice total, event = .rolled dice total := by
  cases rule with
  | dice =>
    refine (Play.tells_ofExcept _).bind fun dice => (Play.tells_roll dice).bind fun total => ?_
    refine (Play.tells_tell ?_).bind fun _ => Play.tells_pure _
    exact ⟨dice, total, rfl⟩
  | binary op => exact Play.tells_ofExcept _

/-- A redex with a value tells what it is about to do, and what it leaves. -/
theorem run_contract_of_ok {rule : Rule} {m : Match} {tray tray' : Tray σ} {value : Int} {events : List Event}
    (h : (rule.valueOf m.text).run tray = ⟨.ok value, tray', events⟩) :
    (contract rule m).run tray =
      ⟨.ok value, tray', events ++ [.substituting rule m.text value, .reduced (m.replace value)]⟩ := by
  simp only [contract, Play.run_bind, h, Play.run_tell, Play.run_pure, Outcome.after]
  rfl

theorem run_contract_of_error {rule : Rule} {m : Match} {tray tray' : Tray σ} {fault : Fault} {events : List Event}
    (h : (rule.valueOf m.text).run tray = ⟨.error fault, tray', events⟩) :
    (contract rule m).run tray = ⟨.error fault, tray', events⟩ := by
  simp [contract, Play.run_bind, h]

/-- A redex tells of its rule once it has a value. -/
theorem rulesTold_contract (rule : Rule) (m : Match) (tray : Tray σ) :
    rulesTold ((contract rule m).run tray).events =
      match ((contract rule m).run tray).result with
      | .ok _ => [rule]
      | .error _ => [] := by
  have hquiet : rulesTold ((rule.valueOf m.text).run tray).events = [] := by
    refine List.filterMap_eq_nil_iff.mpr fun event hevent => ?_
    obtain ⟨dice, total, rfl⟩ := tells_valueOf rule m.text tray event hevent
    rfl
  rcases hrun : (rule.valueOf m.text).run tray with ⟨fault | value, tray', events⟩
  · rw [hrun] at hquiet
    rw [run_contract_of_error hrun]
    exact hquiet
  · rw [hrun] at hquiet
    rw [run_contract_of_ok hrun]
    simp only [rulesTold_append] at hquiet ⊢
    rw [hquiet]
    rfl

/-- **A pass replaces the redex by its value**, or fails as that does. -/
theorem run_onePass_of_redex {t : Text} {rule : Rule} {m : Match} (h : redex? t = some (rule, m)) (tray : Tray σ) :
    (onePass t).run tray =
      match (contract rule m).run tray with
      | ⟨.ok value, tray', events⟩ => ⟨.ok (.replaced rule (m.replace value)), tray', events⟩
      | ⟨.error fault, tray', events⟩ => ⟨.error fault, tray', events⟩ := by
  have hnum : isNumeral t = false := isNumeralRow_of_rowRedex? h
  simp only [onePass, hnum, h, Bool.false_eq_true, if_false, Play.run_bind]
  rcases (contract rule m).run tray with ⟨_ | value, tray', events⟩
  · rfl
  · simp [Outcome.after]

/-- Without a redex, a pass does nothing. -/
theorem run_onePass_of_no_redex {t : Text} (h : redex? t = none) (tray : Tray σ) :
    (onePass t).run tray = ⟨.ok (if isNumeral t then .finished else .stuck), tray, []⟩ := by
  rw [onePass, h]
  split <;> rfl

/-- Operators do not touch the tray. -/
theorem tray_onePass_of_binary {t : Text} {op : Operator} {m : Match} (h : redex? t = some (.binary op, m))
    (tray : Tray σ) : ((onePass t).run tray).tray = tray := by
  rw [run_onePass_of_redex h, contract, Rule.valueOf, Play.run_bind, Play.run_ofExcept]
  cases op.valueOf m.text <;> rfl

/-- **A pass tells of the rule that it uses**, and of no other. -/
theorem rulesTold_onePass (t : Text) (tray : Tray σ) :
    rulesTold ((onePass t).run tray).events = ((onePass t).run tray).rule?.toList := by
  cases hredex : redex? t with
  | none =>
    rw [run_onePass_of_no_redex hredex]
    split <;> rfl
  | some redex =>
    obtain ⟨rule, m⟩ := redex
    have htold := rulesTold_contract rule m tray
    rw [run_onePass_of_redex hredex]
    rcases hrun : (contract rule m).run tray with ⟨fault | value, tray', events⟩
    · rw [hrun] at htold
      exact htold
    · rw [hrun] at htold
      exact htold

/-! ## All passes -/

/-- A reduction goes on from what its redex leaves. -/
theorem reduce_of_redex {t : Text} {rule : Rule} {m : Match} (h : redex? t = some (rule, m)) :
    (reduce t : Play σ UInt64) = contract rule m >>= fun value => reduce (m.replace value) := by
  have hnum : isNumeral t = false := isNumeralRow_of_rowRedex? h
  rw [reduce_eq_bind, onePass]
  simp only [hnum, h, bind_assoc, pure_bind, Bool.false_eq_true, if_false]

/-- Without a redex, a reduction ends. -/
theorem reduce_of_no_redex {t : Text} (h : redex? t = none) :
    (reduce t : Play σ UInt64) =
      if isNumeral t then Play.ofExcept (readTotal t) else Play.fail (.malformed t) := by
  rw [reduce_eq_bind, onePass, h]
  split <;> rw [pure_bind]

/-- **A reduction tells what its passes tell**, one after the other. -/
theorem events_reduce (t : Text) (tray : Tray σ) :
    ((reduce t).run tray).events = (passes t tray).flatMap fun step => step.2.events := by
  fun_induction passes t tray with
  | case1 t tray rule next tray' events hrun ih =>
    rw [reduce_eq_bind, Play.run_bind, hrun, List.flatMap_cons, ← ih]
    rfl
  | case2 t tray hlast =>
    rw [reduce_eq_bind, Play.run_bind]
    rcases hrun : (onePass t).run tray with ⟨fault | (⟨rule, next⟩ | _ | _), tray', events⟩
    · simp
    · exact absurd hrun (hlast rule next tray' events)
    · simp [Outcome.after]
    · simp [Outcome.after]

/-- Each pass tells of its rule. -/
theorem rulesTold_of_mem_passes {t : Text} {tray : Tray σ} : ∀ step ∈ passes t tray,
    rulesTold step.2.events = step.2.rule?.toList := by
  fun_induction passes t tray with
  | case1 t tray rule next tray' events hrun ih =>
    intro step hstep
    rcases List.mem_cons.mp hstep with rfl | hstep
    · rw [← hrun]; exact rulesTold_onePass t tray
    · exact ih step hstep
  | case2 t tray hlast =>
    intro step hstep
    rw [List.mem_singleton.mp hstep]
    exact rulesTold_onePass t tray

/-- **The rules that a reduction tells of are those of its passes.** -/
theorem rulesTold_reduce (t : Text) (tray : Tray σ) :
    rulesTold ((reduce t).run tray).events = (passes t tray).filterMap fun step => step.2.rule? := by
  rw [events_reduce, rulesTold, List.filterMap_flatMap, List.filterMap_eq_flatMap_toList]
  exact List.flatMap_congr rulesTold_of_mem_passes

end
end TabletopDice
