import TabletopDice.Proofs.Chain
import TabletopDice.Proofs.Resolution
import TabletopDice.Proofs.Shape

/-!
# Expressions

An expression is a chain whose operands are numerals and expressions in parentheses. Its evaluation follows this
structure: `Chain.settle` replaces the groups by their values, from the left and the inner ones first, and the chain
that is left has a value of its own (`Chain.value`).

- The text of an expression is a nest in which all parentheses match (`Chain.nestAfter`), and resolving the groups of
  that nest settles the expression (`Chain.mute_settled`);
- the text of a settled chain is reduced to the value of the chain (`Chain.mute_reduce_text`);
- the text of an expression is well-shaped (`wellShaped_text`), and its evaluation is that of the expression
  (`evaluate_text`).
-/

namespace TabletopDice

open Lexeme

/-- A numeral, or an expression in parentheses. -/
inductive Atom
  | numeral (d : Digits)
  | group (e : Chain (Term Atom))

/-- Terms with operators between them. -/
abbrev Expression := Chain (Term Atom)

mutual

/-- The text of an atom. -/
def Atom.text : Atom → Text
  | .numeral d => d.text
  | .group e => '(' :: (e.text ++ [')'])

/-- The text of a term. -/
def Term.text : Term Atom → Text
  | .atom a => a.text
  | .die sides => 'd' :: sides.text
  | .dice count sides => count.text ++ 'd' :: sides.text

/-- The text of an expression. -/
def Chain.text : Chain (Term Atom) → Text
  | .single t => t.text
  | .snoc front op t => front.text ++ op.mark :: t.text

end

/-! ## Evaluation by structure -/

section

variable {σ : Type} [Roller σ]

mutual

/-- The numeral in the place of an atom: for a group, the value of the expression in it. -/
def Atom.settle : Atom → Play σ Digits
  | .numeral d => return d
  | .group e => do
    let chain ← e.settle
    return .ofNat (← chain.value).toNat

/-- The term without groups. -/
def Term.settle : Term Atom → Play σ (Term Digits)
  | .atom a => return .atom (← a.settle)
  | .die sides => return .die (← sides.settle)
  | .dice count sides => do
    let settled ← count.settle
    return settled.dice (← sides.settle)

/-- The expression without groups. -/
def Chain.settle : Chain (Term Atom) → Play σ (Chain (Term Digits))
  | .single t => return .single (← t.settle)
  | .snoc front op t => do
    let settled ← front.settle
    return settled.snoc op (← t.settle)

end

/-- The total of an expression, counting its dice from zero. -/
def Expression.evaluate (e : Expression) : Play σ UInt64 := do
  Play.reset
  let chain ← e.settle
  chain.value

end

/-! ## The nest of an expression -/

mutual

/-- The nest of an atom behind another nest. -/
def Atom.nestAfter : Atom → Nest → Nest
  | .numeral d, front => d.text.foldl Nest.char front
  | .group e, front => front.group (e.nestAfter .empty)

/-- The nest of a term behind another nest. -/
def Term.nestAfter : Term Atom → Nest → Nest
  | .atom a, front => a.nestAfter front
  | .die sides, front => sides.nestAfter (front.char 'd')
  | .dice count sides, front => sides.nestAfter ((count.nestAfter front).char 'd')

/-- The nest of an expression behind another nest. -/
def Chain.nestAfter : Chain (Term Atom) → Nest → Nest
  | .single t, front => t.nestAfter front
  | .snoc chain op t, front => t.nestAfter ((chain.nestAfter front).char op.mark)

end

theorem Nest.spell_foldl_char (t : Text) (front : Nest) : (t.foldl Nest.char front).spell = front.spell ++ t := by
  induction t generalizing front with
  | nil => simp
  | cons c t ih => rw [List.foldl_cons, ih]; simp [Nest.spell]

theorem Nest.Closed.foldl_char {t : Text} (ht : ∀ c ∈ t, Group.isParen c = false) {front : Nest} (h : front.Closed) :
    (t.foldl Nest.char front).Closed := by
  induction t generalizing front with
  | nil => exact h
  | cons c t ih =>
    exact ih (fun d hd => ht d (List.mem_cons_of_mem _ hd)) ⟨h, ht c List.mem_cons_self⟩

mutual

theorem Atom.spell_nestAfter : ∀ (a : Atom) (front : Nest), (a.nestAfter front).spell = front.spell ++ a.text
  | .numeral d, front => by rw [Atom.nestAfter, Nest.spell_foldl_char, Atom.text]
  | .group e, front => by rw [Atom.nestAfter, Nest.spell, e.spell_nestAfter, Atom.text]; rfl

theorem Term.spell_nestAfter : ∀ (t : Term Atom) (front : Nest), (t.nestAfter front).spell = front.spell ++ t.text
  | .atom a, front => by rw [Term.nestAfter, a.spell_nestAfter, Term.text]
  | .die sides, front => by rw [Term.nestAfter, sides.spell_nestAfter, Term.text]; simp [Nest.spell]
  | .dice count sides, front => by
    rw [Term.nestAfter, sides.spell_nestAfter, Nest.spell, count.spell_nestAfter, Term.text]
    simp

theorem Chain.spell_nestAfter : ∀ (e : Chain (Term Atom)) (front : Nest),
    (e.nestAfter front).spell = front.spell ++ e.text
  | .single t, front => by rw [Chain.nestAfter, t.spell_nestAfter, Chain.text]
  | .snoc chain op t, front => by
    rw [Chain.nestAfter, t.spell_nestAfter, Nest.spell, chain.spell_nestAfter, Chain.text]
    simp

end

mutual

theorem Atom.closed_nestAfter : ∀ (a : Atom) {front : Nest}, front.Closed → (a.nestAfter front).Closed
  | .numeral d, front, h => by
    rw [Atom.nestAfter]
    exact h.foldl_char fun c hc => Group.isParen_of_isDigit (d.isDigit c hc)
  | .group e, front, h => by
    rw [Atom.nestAfter]
    exact ⟨h, e.closed_nestAfter trivial⟩

theorem Term.closed_nestAfter : ∀ (t : Term Atom) {front : Nest}, front.Closed → (t.nestAfter front).Closed
  | .atom a, front, h => by rw [Term.nestAfter]; exact a.closed_nestAfter h
  | .die sides, front, h => by rw [Term.nestAfter]; exact sides.closed_nestAfter ⟨h, by decide⟩
  | .dice count sides, front, h => by
    rw [Term.nestAfter]
    exact sides.closed_nestAfter ⟨count.closed_nestAfter h, by decide⟩

theorem Chain.closed_nestAfter : ∀ (e : Chain (Term Atom)) {front : Nest}, front.Closed → (e.nestAfter front).Closed
  | .single t, front, h => by rw [Chain.nestAfter]; exact t.closed_nestAfter h
  | .snoc chain op t, front, h => by
    rw [Chain.nestAfter]
    exact t.closed_nestAfter ⟨chain.closed_nestAfter h, by cases op <;> decide⟩

end

/-! ## Settling by the resolution of groups -/

section

variable {σ : Type} [Roller σ]

/-- The buffer that a resolution leaves, if no group is without a value. -/
def Resolution.finished : Resolution → Play σ Text
  | ⟨_, some fault⟩ => Play.fail fault
  | ⟨buffer, none⟩ => pure buffer

/-- The text of a nest with its groups resolved, if each of them has a value. -/
def Nest.settled (n : Nest) : Play σ Text := n.resolve >>= Resolution.finished

theorem Nest.settled_empty : (Nest.empty.settled : Play σ Text) = pure [] := rfl

theorem Nest.settled_char (front : Nest) (c : Char) :
    ((front.char c).settled : Play σ Text) = front.settled >>= fun before => pure (before ++ [c]) := by
  rw [settled, settled, resolve, bind_assoc, bind_assoc]
  congr 1
  funext r
  obtain ⟨buffer, _ | fault⟩ := r <;> rfl

theorem Nest.settled_foldl_char (t : Text) (front : Nest) :
    ((t.foldl Nest.char front).settled : Play σ Text) = front.settled >>= fun before => pure (before ++ t) := by
  induction t generalizing front with
  | nil => simp
  | cons c t ih => rw [List.foldl_cons, ih, settled_char]; simp

/-- A group is settled after what stands in front of it, its inside first. -/
theorem Nest.settled_group (front inside : Nest) :
    ((front.group inside).settled : Play σ Text) = front.settled >>= fun before =>
      inside.settled >>= fun within => reduce within >>= fun value =>
        Play.tell (.resolvedGroup ('(' :: (within ++ [')'])) value) >>= fun _ =>
          pure (before ++ Numeral.write value.toNat) := by
  rw [settled, settled, settled, resolve, bind_assoc, bind_assoc]
  congr 1
  funext r
  obtain ⟨before, _ | fault⟩ := r
  · simp only [bind_assoc, Resolution.finished, pure_bind]
    congr 1
    funext r
    obtain ⟨within, _ | fault⟩ := r
    · simp only [bind_assoc]
      rw [Play.attempt_bind _ fun fault => by rw [pure_bind]; rfl]
      simp only [bind_assoc, pure_bind]
      rfl
    · rfl
  · rfl

theorem Term.proper_of_mem_row {t : Term Digits} : ∀ x ∈ t.row, x.Proper := by
  have hd : (Lexeme.mark 'd').Proper := show ¬ ('d').isDigit by decide
  induction t with
  | atom d => simp [Term.row, d.proper_lexeme]
  | die sides => simp [Term.row, sides.proper_lexeme, hd]
  | dice count sides ih =>
    intro x hx
    rcases List.mem_append.mp hx with hx | hx
    · exact ih x hx
    · rcases List.mem_pair.mp hx with rfl | rfl
      · exact hd
      · exact sides.proper_lexeme

theorem Chain.proper_of_mem_row {c : Chain (Term Digits)} : ∀ x ∈ c.row Term.row, x.Proper := by
  induction c with
  | single t => exact Term.proper_of_mem_row
  | snoc front op t ih =>
    intro x hx
    rcases List.mem_append.mp hx with hx | hx
    · exact ih x hx
    · rcases List.mem_cons.mp hx with rfl | hx
      · show ¬ op.mark.isDigit
        simp [isDigit_mark]
      · exact Term.proper_of_mem_row x hx

/-- Rows around a character that is no digit are separated if both are. -/
theorem separated_append_mark {r s : List Lexeme} {c : Char} (hr : Separated r) (hs : Separated s) :
    Separated (r ++ .mark c :: s) := by
  refine List.isChain_append.mpr ⟨hr, List.isChain_cons.mpr ⟨fun y _ => ?_, hs⟩, fun x _ y hy => ?_⟩
  · simp [Lexeme.isInteger]
  · obtain rfl := Option.some.inj hy
    simp [Lexeme.isInteger]

theorem Term.separated_row (t : Term Digits) : Separated t.row := by
  induction t with
  | atom d => exact .singleton _
  | die sides => exact separated_append_mark (r := []) .nil (.singleton _)
  | dice count sides ih => exact separated_append_mark ih (.singleton _)

theorem Chain.separated_row (c : Chain (Term Digits)) : Separated (c.row Term.row) := by
  induction c with
  | single t => exact t.separated_row
  | snoc front op t ih => exact separated_append_mark ih t.separated_row

/-- **The text of a settled chain is reduced to the value of the chain.** -/
theorem Chain.mute_reduce_text (c : Chain (Term Digits)) :
    (reduce (join (c.row Term.row)) : Play σ UInt64).mute = c.value := by
  rw [reduce_eq_reduceRow, lexemes_join Chain.proper_of_mem_row c.separated_row, mute_reduceRow_chain]

mutual

/-- An atom is settled behind the text in front of it. -/
theorem Atom.mute_settled : ∀ (a : Atom) (front : Nest), ((a.nestAfter front).settled : Play σ Text).mute =
    front.settled.mute >>= fun before => a.settle >>= fun d => pure (before ++ d.text)
  | .numeral d, front => by
    rw [Atom.nestAfter, Nest.settled_foldl_char, Atom.settle]
    simp
  | .group e, front => by
    have hinside : ((e.nestAfter .empty).settled : Play σ Text).mute = _ := e.mute_settled .empty
    rw [Atom.nestAfter, Nest.settled_group, Atom.settle]
    rw [Nest.settled_empty, Play.mute_pure, pure_bind] at hinside
    simp [hinside, Chain.mute_reduce_text, Digits.ofNat]

/-- A term is settled behind the text in front of it. -/
theorem Term.mute_settled : ∀ (t : Term Atom) (front : Nest), ((t.nestAfter front).settled : Play σ Text).mute =
    front.settled.mute >>= fun before => t.settle >>= fun t => pure (before ++ join t.row)
  | .atom a, front => by
    rw [Term.nestAfter, a.mute_settled, Term.settle]
    simp [Term.row, Digits.lexeme, Lexeme.text]
  | .die sides, front => by
    rw [Term.nestAfter, sides.mute_settled, Nest.settled_char, Term.settle]
    simp [Term.row, Digits.lexeme, Lexeme.text]
  | .dice count sides, front => by
    rw [Term.nestAfter, sides.mute_settled, Nest.settled_char, Play.mute_bind, count.mute_settled, Term.settle]
    simp [Term.row, Digits.lexeme, Lexeme.text]

/-- An expression is settled behind the text in front of it. -/
theorem Chain.mute_settled : ∀ (e : Chain (Term Atom)) (front : Nest),
    ((e.nestAfter front).settled : Play σ Text).mute =
      front.settled.mute >>= fun before => e.settle >>= fun c => pure (before ++ join (c.row Term.row))
  | .single t, front => by
    rw [Chain.nestAfter, t.mute_settled, Chain.settle]
    simp [Chain.row]
  | .snoc chain op t, front => by
    rw [Chain.nestAfter, t.mute_settled, Nest.settled_char, Play.mute_bind, chain.mute_settled, Chain.settle]
    simp [Chain.row, Lexeme.text]

end

/-! ## Evaluation of a text -/

mutual

theorem Atom.read_text : ∀ (a : Atom) (s : Reading), s.read a.text = some ⟨true, s.depth⟩
  | .numeral d, s => by rw [Atom.text]; exact Reading.read_numeral d s
  | .group e, s => by
    rw [Atom.text]
    refine Reading.read_cons_eq_some.mpr ⟨⟨false, s.depth + 1⟩, rfl, ?_⟩
    exact Reading.read_append_eq_some.mpr ⟨_, e.read_text _, rfl⟩

theorem Term.read_text : ∀ (t : Term Atom) (s : Reading), s.read t.text = some ⟨true, s.depth⟩
  | .atom a, s => by rw [Term.text]; exact a.read_text s
  | .die sides, s => by
    rw [Term.text]
    exact Reading.read_cons_eq_some.mpr ⟨_, rfl, sides.read_text _⟩
  | .dice count sides, s => by
    rw [Term.text]
    refine Reading.read_append_eq_some.mpr ⟨_, count.read_text s, ?_⟩
    exact Reading.read_cons_eq_some.mpr ⟨_, rfl, sides.read_text _⟩

theorem Chain.read_text : ∀ (e : Chain (Term Atom)) (s : Reading), s.read e.text = some ⟨true, s.depth⟩
  | .single t, s => by rw [Chain.text]; exact t.read_text s
  | .snoc front op t, s => by
    rw [Chain.text]
    refine Reading.read_append_eq_some.mpr ⟨_, front.read_text s, ?_⟩
    exact Reading.read_cons_eq_some.mpr ⟨_, Reading.step_mark op _ rfl, t.read_text _⟩

end

/-- **The text of an expression is well-shaped.** -/
theorem wellShaped_text (e : Expression) : WellShaped e.text := wellShaped_iff_read.mpr (e.read_text {})

/-- A nest in which all parentheses match is settled and then reduced. -/
theorem total_of_closed {n : Nest} (h : n.Closed) :
    (resolveGroups n.spell >>= Resolution.total : Play σ UInt64) = n.settled >>= reduce := by
  have hloose : Loose n.outside := loose_of_not_mem_left fun hm => absurd (h.outside _ hm) (by decide)
  rw [resolveGroups_spell h.tidy hloose, Nest.settled, bind_assoc]
  congr 1
  funext r
  obtain ⟨buffer, _ | fault⟩ := r <;> rfl

/-- An instruction that is the text of an expression has the total, or the fault, of the expression. -/
theorem mute_evaluate_text (e : Expression) : (evaluate e.text : Play σ UInt64).mute = e.evaluate := by
  have hspell : (e.nestAfter .empty).spell = unquote e.text := by
    rw [e.spell_nestAfter, (wellShaped_text e).unquote_eq]
    rfl
  have hclosed : (e.nestAfter .empty).Closed := e.closed_nestAfter (show Nest.empty.Closed from trivial)
  rw [mute_evaluate, ← hspell, total_of_closed hclosed, Play.mute_bind, e.mute_settled, Nest.settled_empty,
    Expression.evaluate]
  simp [Chain.mute_reduce_text]

/-- **The evaluation of a text is the evaluation of its expression**: the same total or fault, and the same tray. -/
theorem evaluate_text (e : Expression) (tray : Tray σ) :
    ((evaluate e.text).run tray).result = (e.evaluate.run tray).result ∧
      ((evaluate e.text).run tray).tray = (e.evaluate.run tray).tray := by
  rw [← mute_evaluate_text]
  exact ⟨rfl, rfl⟩

end

end TabletopDice
