import TabletopDice.Proofs.Acceptance
import TabletopDice.Proofs.Expression

/-!
# Relations that plays hand on

On a tray, the machine does no more than to throw dice, to look at their number, to tell what it does, and to give a
result or fail. What these plays have in common with their counterparts on another kind of tray, all plays have that are
made of them.

- `Play.Parametric` is a relation between plays with a clause for each of these, and one for plays in a row. A property
  of single plays is a relation that looks at one of them;
- it holds between a pass and itself (`Parametric.onePass`), and so between a reduction and itself, the resolution of
  groups (`Parametric.finished`), and an evaluation behind its start (`Parametric.counting`).
-/

namespace TabletopDice

section

variable {σ τ : Type} [Roller σ] [Roller τ]

/-- Rolls dice and tells of them. -/
def Play.throw (dice : Dice) : Play σ Int := do
  let total ← Play.roll dice
  Play.tell (.rolled dice total)
  return total.toNat

/-- An evaluation, once its dice count from zero. -/
def counting (t : Text) : Play σ UInt64 :=
  resolveGroups (unquote t) >>= Resolution.finished >>= reduce >>= fun total =>
    Play.booked >>= fun rolls => Play.tell (.evaluated t total rolls) >>= fun _ => pure total

/-! ## Resolution by groups -/

/-- A resolution has a total once it is finished. -/
theorem total_eq_finished_bind (t : Text) :
    (resolveGroups t >>= Resolution.total : Play σ UInt64) = resolveGroups t >>= Resolution.finished >>= reduce := by
  rw [bind_assoc]
  congr 1
  funext r
  obtain ⟨buffer, _ | fault⟩ := r <;> rfl

theorem evaluate_eq_reset_bind (t : Text) :
    (evaluate t : Play σ UInt64) = Play.reset >>= fun _ => counting t := by
  rw [evaluate_eq_bind, total_eq_finished_bind]
  rfl

/-- What has been booked before an evaluation is taken back. -/
theorem run_evaluate (t : Text) (tray : Tray σ) : (evaluate t).run tray = (counting t).run tray.reset := by
  rw [evaluate_eq_reset_bind]
  rfl

/-- A text without groups is finished. -/
theorem finished_of_loose {t : Text} (h : Loose t) :
    (resolveGroups t >>= Resolution.finished : Play σ Text) = pure t := by
  rw [resolveGroups_of_loose h, pure_bind]
  rfl

/-- A text with a group is finished when it is with the value of the group in its place. -/
theorem finished_of_group {t : Text} {g : Group} (h : Group.find? t = some g) :
    (resolveGroups t >>= Resolution.finished : Play σ Text) = reduce g.inside >>= fun value =>
      Play.tell (.resolvedGroup g.text value) >>= fun _ =>
        resolveGroups (g.replace value) >>= Resolution.finished :=
  resolveGroups_bind_of_group h fun _ => rfl

/-! ## The plays of the machine -/

/-- A relation between plays on two kinds of trays, with a clause for each play of the machine. Only the roll of dice is
told of together with it. -/
structure Play.Parametric (rel : {α : Type} → Play σ α → Play τ α → Prop) : Prop where
  ofExcept : ∀ {α : Type} (result : Except Fault α), rel (Play.ofExcept result) (Play.ofExcept result)
  tell : ∀ event : Event, (∀ dice total, event ≠ .rolled dice total) → rel (Play.tell event) (Play.tell event)
  booked : rel Play.booked Play.booked
  throw : ∀ dice, rel (Play.throw dice) (Play.throw dice)
  bind : ∀ {α β : Type} {p : Play σ α} {q : Play τ α} {f : α → Play σ β} {g : α → Play τ β},
    rel p q → (∀ a, rel (f a) (g a)) → rel (p >>= f) (q >>= g)

namespace Play.Parametric

variable {rel : {α : Type} → Play σ α → Play τ α → Prop}

theorem pure (h : Parametric rel) {α : Type} (a : α) : rel (Pure.pure a) (Pure.pure a) := h.ofExcept (.ok a)

theorem fail (h : Parametric rel) {α : Type} (fault : Fault) : rel (α := α) (Play.fail fault) (Play.fail fault) :=
  h.ofExcept (.error fault)

theorem valueOf (h : Parametric rel) (rule : Rule) (t : Text) : rel (rule.valueOf t) (rule.valueOf t) := by
  cases rule with
  | dice => exact h.bind (h.ofExcept _) h.throw
  | binary op => exact h.ofExcept _

theorem contract (h : Parametric rel) (rule : Rule) (m : Match) : rel (contract rule m) (contract rule m) :=
  h.bind (h.valueOf rule m.text) fun _ => h.bind (h.tell _ fun _ _ he => by cases he) fun _ =>
    h.bind (h.tell _ fun _ _ he => by cases he) fun _ => h.pure _

/-- **A pass is related to itself.** -/
theorem onePass (h : Parametric rel) (t : Text) : rel (onePass t) (onePass t) := by
  unfold TabletopDice.onePass
  split
  · exact h.pure _
  · split
    · exact h.pure _
    · exact h.bind (h.contract _ _) fun _ => h.pure _

/-- So is a reduction, by induction along its passes. -/
theorem reduce (h : Parametric rel) (t : Text) : rel (reduce t) (reduce t) := by
  induction t using buffer_induction with
  | normal t hredex =>
    rw [reduce_of_no_redex hredex, reduce_of_no_redex hredex]
    split
    · exact h.ofExcept _
    · exact h.fail _
  | redex t rule m hredex ih =>
    rw [reduce_of_redex hredex, reduce_of_redex hredex]
    exact h.bind (h.contract rule m) ih

/-- So is the resolution of groups, by induction along them. -/
theorem finished (h : Parametric rel) (t : Text) :
    rel (resolveGroups t >>= Resolution.finished) (resolveGroups t >>= Resolution.finished) := by
  induction t using group_induction with
  | loose t hloose =>
    rw [finished_of_loose hloose, finished_of_loose hloose]
    exact h.pure t
  | group t g hfind ih =>
    rw [finished_of_group hfind, finished_of_group hfind]
    exact h.bind (h.reduce g.inside) fun value => h.bind (h.tell _ fun _ _ he => by cases he) fun _ => ih value

/-- The resolution of groups is related to itself even where it stops at a fault, if attempts are. -/
theorem resolveGroups (h : Parametric rel)
    (hattempt : ∀ {α : Type} {p : Play σ α} {q : Play τ α}, rel p q → rel p.attempt q.attempt) (t : Text) :
    rel (resolveGroups t) (resolveGroups t) := by
  induction t using group_induction with
  | loose t hloose =>
    rw [resolveGroups_of_loose hloose, resolveGroups_of_loose hloose]
    exact h.pure _
  | group t g hfind ih =>
    rw [resolveGroups_of_group hfind, resolveGroups_of_group hfind]
    refine h.bind (hattempt (h.reduce g.inside)) fun result => ?_
    cases result with
    | error fault => exact h.pure _
    | ok value => exact h.bind (h.tell _ fun _ _ he => by cases he) fun _ => ih value

/-- **And so is an evaluation**, behind its start. -/
theorem counting (h : Parametric rel) (t : Text) : rel (counting t) (counting t) :=
  h.bind (h.bind (h.finished _) h.reduce) fun _ => h.bind h.booked fun _ =>
    h.bind (h.tell _ fun _ _ he => by cases he) fun _ => h.pure _

end Play.Parametric

end
end TabletopDice
