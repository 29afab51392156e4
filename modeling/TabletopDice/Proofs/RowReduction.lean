import TabletopDice.Proofs.Occurrence
import TabletopDice.Reduction

/-!
# Reduction of rows of lexemes

The machine of `Reduction`, on rows of lexemes in the place of texts: it never writes a row out and never reads one.

- `rowPass` is one pass, `reduceRow` all passes of a buffer, and `rowPasses` lists them. Proofs about them follow the
  passes (`row_induction`, `buffer_induction`);
- a pass over a text is a pass over its lexemes (`toRow_map_onePass`), and so is a run of any length: the same values,
  trays, events and faults, with the lexemes of each buffer as the row at the same place (`map_passes_eq`,
  `reduce_eq_reduceRow`).
-/

namespace TabletopDice

open Lexeme

/-! ## The machine -/

/-- Whether a row is one numeral. -/
def isNumeralRow : List Lexeme → Bool
  | [numeral _] => true
  | _ => false

theorem exists_of_isNumeralRow {row : List Lexeme} (h : isNumeralRow row) : ∃ ds, row = [numeral ds] := by
  unfold isNumeralRow at h
  split at h
  · exact ⟨_, rfl⟩
  · cases h

/-- The rule that applies to a row, and where. -/
def rowRedex? (row : List Lexeme) : Option (Rule × Match) :=
  Rule.priority.findSome? fun rule => (rule.find? row).map fun m => (rule, m)

/-- What one pass over a row does. -/
inductive RowPass
  | replaced (rule : Rule) (row : List Lexeme)
  | finished
  | stuck
  deriving DecidableEq, Repr

/-- The pass over lexemes that a pass over a text is. -/
def Pass.toRow : Pass → RowPass
  | replaced rule buffer => .replaced rule (lexemes buffer)
  | finished => .finished
  | stuck => .stuck

/-- An outcome of a pass, with lexemes for the buffer. -/
def Outcome.toRow {σ : Type} (outcome : Outcome σ Pass) : Outcome σ RowPass :=
  ⟨outcome.result.map Pass.toRow, outcome.tray, outcome.events⟩

theorem find?_of_rowRedex? {row : List Lexeme} {rule : Rule} {m : Match} (h : rowRedex? row = some (rule, m)) :
    rule.find? row = some m := by
  obtain ⟨r, -, hr⟩ := List.exists_of_findSome?_eq_some h
  obtain ⟨m', hm, e⟩ := Option.map_eq_some_iff.mp hr
  obtain ⟨rfl, rfl⟩ := Prod.mk.injEq .. ▸ e
  exact hm

/-- **Induction along passes**: a row without a redex, and a row with a redex, whatever has been put in its place. -/
theorem row_induction {motive : List Lexeme → Prop} (normal : ∀ row, rowRedex? row = none → motive row)
    (redex : ∀ row rule m, rowRedex? row = some (rule, m) → (∀ value, motive (m.rewrite value)) → motive row)
    (row : List Lexeme) : motive row := by
  induction hn : live row using Nat.strongRecOn generalizing row with
  | ind n ih =>
    cases h : rowRedex? row with
    | none => exact normal row h
    | some found =>
      obtain ⟨rule, m⟩ := found
      refine redex row rule m h fun value => ?_
      exact ih _ (hn ▸ live_rewrite_lt (find?_of_rowRedex? h) value) _ rfl

/-- Induction along passes over a text. -/
theorem buffer_induction {motive : Text → Prop} (normal : ∀ t, redex? t = none → motive t)
    (redex : ∀ t rule m, redex? t = some (rule, m) → (∀ value, motive (m.replace value)) → motive t)
    (t : Text) : motive t := by
  induction hn : live (lexemes t) using Nat.strongRecOn generalizing t with
  | ind n ih =>
    cases h : redex? t with
    | none => exact normal t h
    | some found =>
      obtain ⟨rule, m⟩ := found
      refine redex t rule m h fun value => ?_
      exact ih _ (hn ▸ live_replace_lt (occurrence_of_redex? h) value) _ rfl

section

variable {σ : Type} [Roller σ]

/-- One pass over a row. -/
def rowPass (row : List Lexeme) : Play σ RowPass :=
  if isNumeralRow row then pure .finished
  else match rowRedex? row with
    | none => pure .stuck
    | some (rule, m) => do
      let value ← contract rule m
      return .replaced rule (m.rewrite value)

/-- Passes over a row until it is one numeral; the total is its number. -/
def reduceRow (row : List Lexeme) : Play σ UInt64 :=
  if isNumeralRow row then Play.ofExcept (readTotal (join row))
  else match _ : rowRedex? row with
    | none => Play.fail (.malformed (join row))
    | some (rule, m) => do
      let value ← contract rule m
      reduceRow (m.rewrite value)
termination_by live row
decreasing_by exact live_rewrite_lt (find?_of_rowRedex? ‹_›) value

theorem isNumeralRow_of_rowRedex? {row : List Lexeme} {redex : Rule × Match} (h : rowRedex? row = some redex) :
    isNumeralRow row = false := by
  unfold isNumeralRow
  split
  · cases h
  · rfl

/-- A row with a redex goes on from what the redex leaves. -/
theorem reduceRow_of_redex {row : List Lexeme} {rule : Rule} {m : Match} (h : rowRedex? row = some (rule, m)) :
    (reduceRow row : Play σ UInt64) = contract rule m >>= fun value => reduceRow (m.rewrite value) := by
  rw [reduceRow, isNumeralRow_of_rowRedex? h]
  simp only [Bool.false_eq_true, if_false]
  split
  · rename_i hnone
    rw [h] at hnone
    cases hnone
  · rename_i hsome
    rw [h] at hsome
    obtain ⟨rfl, rfl⟩ := Prod.mk.injEq .. ▸ Option.some.inj hsome
    rfl

/-- A row without a redex is a numeral, or cannot be reduced. -/
theorem reduceRow_of_no_redex {row : List Lexeme} (h : rowRedex? row = none) :
    (reduceRow row : Play σ UInt64) =
      if isNumeralRow row then Play.ofExcept (readTotal (join row)) else Play.fail (.malformed (join row)) := by
  rw [reduceRow]
  split
  · rfl
  · split
    · rfl
    · rename_i hsome
      rw [h] at hsome
      cases hsome

/-- A pass that replaces something leaves the row of its redex rewritten. -/
theorem rewrite_of_rowPass {row next : List Lexeme} {tray tray' : Tray σ} {rule : Rule} {events : List Event}
    (h : (rowPass row).run tray = ⟨.ok (.replaced rule next), tray', events⟩) :
    ∃ m value, rule.find? row = some m ∧ next = m.rewrite value := by
  unfold rowPass at h
  split at h
  · cases h
  · split at h
    · cases h
    · rename_i r m hr
      rw [Play.run_bind] at h
      split at h
      · rename_i value _ _ _
        obtain ⟨rfl, rfl⟩ : r = rule ∧ m.rewrite value = next := by
          simpa [Outcome.after] using congrArg Outcome.result h
        exact ⟨m, value, find?_of_rowRedex? hr, rfl⟩
      · cases h

/-- The passes over a row, each with the row that it leaves, until one does not reduce. -/
def rowPasses (row : List Lexeme) (tray : Tray σ) : List (List Lexeme × Outcome σ RowPass) :=
  match _ : (rowPass row).run tray with
  | ⟨.ok (.replaced rule next), tray', events⟩ =>
    (next, ⟨.ok (.replaced rule next), tray', events⟩) :: rowPasses next tray'
  | outcome => [(row, outcome)]
termination_by live row
decreasing_by
  obtain ⟨m, value, hm, rfl⟩ := rewrite_of_rowPass ‹_›
  exact live_rewrite_lt hm value

/-! ## Texts and rows in lock step -/

theorem redex?_eq (t : Text) : redex? t = rowRedex? (lexemes t) := rfl

theorem isNumeral_eq (t : Text) : isNumeral t = isNumeralRow (lexemes t) := rfl

/-- **One pass over a text is one pass over its lexemes.** -/
theorem toRow_map_onePass (t : Text) : (Pass.toRow <$> onePass t : Play σ RowPass) = rowPass (lexemes t) := by
  unfold onePass rowPass
  rw [isNumeral_eq]
  split
  · rw [map_pure]; rfl
  · rw [redex?_eq]
    cases hr : rowRedex? (lexemes t) with
    | none => rw [map_pure]; rfl
    | some redex =>
      obtain ⟨rule, m⟩ := redex
      simp only [map_bind, map_pure, Pass.toRow, lexemes_replace (find?_of_rowRedex? hr)]

theorem toRow_run_onePass (t : Text) (tray : Tray σ) :
    ((onePass t).run tray).toRow = (rowPass (lexemes t)).run tray := by
  rw [← toRow_map_onePass, map_eq_pure_bind, Play.run_bind]
  rcases (onePass t).run tray with ⟨_ | pass, tray', events⟩
  · rfl
  · simp [Outcome.toRow, Outcome.after, Except.map]

/-- After a pass that replaces something, the passes go on from what it leaves. -/
theorem rowPasses_of_replaced {row next : List Lexeme} {tray tray' : Tray σ} {rule : Rule} {events : List Event}
    (h : (rowPass row).run tray = ⟨.ok (.replaced rule next), tray', events⟩) :
    rowPasses row tray = (next, ⟨.ok (.replaced rule next), tray', events⟩) :: rowPasses next tray' := by
  rw [rowPasses]
  split
  · rename_i heq
    rw [h] at heq
    cases heq
    rfl
  · rename_i hne
    exact absurd h (hne _ _ _ _)

/-- A pass that replaces nothing is the last one. -/
theorem rowPasses_of_not_replaced {row : List Lexeme} {tray : Tray σ}
    (h : ∀ rule next tray' events, (rowPass row).run tray ≠ ⟨.ok (.replaced rule next), tray', events⟩) :
    rowPasses row tray = [(row, (rowPass row).run tray)] := by
  rw [rowPasses]
  split
  · rename_i heq
    exact absurd heq (h _ _ _ _)
  · rfl

/-- **The passes over a text are the passes over its lexemes**, one for one. -/
theorem map_passes_eq (t : Text) (tray : Tray σ) :
    (passes t tray).map (fun step => (lexemes step.1, step.2.toRow)) = rowPasses (lexemes t) tray := by
  fun_induction passes t tray with
  | case1 t tray rule next tray' events hrun ih =>
    have hrow := toRow_run_onePass t tray
    rw [hrun] at hrow
    rw [rowPasses_of_replaced hrow.symm, ← ih]
    rfl
  | case2 t tray hne =>
    rw [rowPasses_of_not_replaced, ← toRow_run_onePass]
    · rfl
    · intro rule next tray' events hrun
      rw [← toRow_run_onePass] at hrun
      rcases hpass : (onePass t).run tray with ⟨_ | _ | _ | _, tray'', events''⟩
      · rw [hpass] at hrun; cases hrun
      · exact hne _ _ _ _ hpass
      · rw [hpass] at hrun; cases hrun
      · rw [hpass] at hrun; cases hrun

/-- **To reduce a text is to reduce its lexemes.** -/
theorem reduce_eq_reduceRow (t : Text) : (reduce t : Play σ UInt64) = reduceRow (lexemes t) := by
  induction t using buffer_induction with
  | normal t hr =>
    rw [reduce_eq_bind, onePass, reduceRow_of_no_redex hr, join_lexemes, hr, isNumeral_eq]
    split <;> rw [pure_bind]
  | redex t rule m hr ih =>
    have hnum : isNumeral t = false := isNumeralRow_of_rowRedex? hr
    rw [reduceRow_of_redex hr, reduce_eq_bind, onePass]
    simp only [hnum, hr, bind_assoc, pure_bind, Bool.false_eq_true, if_false]
    congr 1
    funext value
    rw [ih value, lexemes_replace (occurrence_of_redex? hr)]

end
end TabletopDice
