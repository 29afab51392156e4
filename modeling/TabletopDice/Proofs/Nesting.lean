import Mathlib.Data.List.Infix
import TabletopDice.Group

/-!
# Parentheses matched by a stack

- A text is `Loose` if no `)` stands behind a `(`. These are the texts without a group (`find?_eq_none_iff`); a group
  behind a loose text is the one that is found (`find?_of_loose`);
- a `Nest` is a text whose matched parentheses are put together. `nesting` reads a text from the left with a stack of
  open parentheses, and loses nothing of it (`spell_nesting`);
- within a matched pair all parentheses match, and outside of all pairs the text is loose
  (`tidy_and_loose_nesting`).
-/

namespace TabletopDice

/-! ## Texts without groups -/

/-- Texts in which no `)` stands behind a `(`. -/
def Loose (t : Text) : Prop := ∀ u v, t = u ++ '(' :: v → ')' ∉ v

theorem loose_of_not_mem_left {t : Text} (h : '(' ∉ t) : Loose t := by
  rintro u v rfl
  exact absurd (by simp) h

theorem loose_of_not_mem_right {t : Text} (h : ')' ∉ t) : Loose t := by
  rintro u v rfl hv
  exact h (by simp [hv])

theorem loose_cons {c : Char} {t : Text} : Loose (c :: t) ↔ (c = '(' → ')' ∉ t) ∧ Loose t := by
  constructor
  · intro h
    exact ⟨fun hc => h [] t (by rw [hc]; rfl), fun u v huv => h (c :: u) v (by rw [huv]; rfl)⟩
  · rintro ⟨hc, ht⟩ u v huv
    rcases u with _ | ⟨d, u⟩
    · obtain ⟨rfl, rfl⟩ := List.cons.inj huv
      exact hc rfl
    · exact ht u v (List.cons.inj huv).2

/-- Two loose texts are loose in a row unless they open and close a group. -/
theorem loose_append {s t : Text} : Loose (s ++ t) ↔ Loose s ∧ Loose t ∧ ('(' ∈ s → ')' ∉ t) := by
  induction s with
  | nil => simp [loose_of_not_mem_left]
  | cons c s ih =>
    rw [List.cons_append, loose_cons, loose_cons, ih]
    constructor
    · rintro ⟨hc, hs, ht, hst⟩
      refine ⟨⟨fun h hm => hc h (List.mem_append_left _ hm), hs⟩, ht, fun hm => ?_⟩
      rcases List.mem_cons.mp hm with h | hm
      · exact fun hm => hc h.symm (List.mem_append_right _ hm)
      · exact hst hm
    · rintro ⟨⟨hc, hs⟩, ht, hst⟩
      refine ⟨fun h hm => ?_, hs, ht, fun hm => hst (List.mem_cons_of_mem _ hm)⟩
      rcases List.mem_append.mp hm with hm | hm
      · exact hc h hm
      · exact hst (by rw [h]; exact List.mem_cons_self) hm

theorem mem_filter_isParen {c : Char} (hc : Group.isParen c) {t : Text} : c ∈ t.filter Group.isParen ↔ c ∈ t := by
  simp [List.mem_filter, hc]

/-- Only the parentheses of a text decide whether it is loose. -/
theorem loose_filter {t : Text} : Loose (t.filter Group.isParen) ↔ Loose t := by
  induction t with
  | nil => exact Iff.rfl
  | cons c t ih =>
    rw [loose_cons, List.filter_cons]
    split
    · rw [loose_cons, ih, mem_filter_isParen (by rfl)]
    · rename_i hc
      rw [ih]
      refine ⟨fun h => ⟨fun he => ?_, h⟩, And.right⟩
      rw [he] at hc
      exact absurd rfl hc

namespace Group

theorem isParen_of_isDigit {c : Char} (h : c.isDigit) : isParen c = false := by
  cases hparen : isParen c with
  | false => rfl
  | true =>
    have hlr : c = '(' ∨ c = ')' := by simpa [isParen] using hparen
    rcases hlr with rfl | rfl <;> exact absurd h (by decide)

/-- A `(` keeps a group from closing in front of it. -/
theorem close?_of_left {s : Text} (h : ')' ∉ s) (t : Text) : close? (s ++ '(' :: t) = none := by
  induction s with
  | nil => simp [close?, isParen]
  | cons c s ih =>
    have hs : ')' ∉ s := fun hm => h (List.mem_cons_of_mem _ hm)
    have hc : c ≠ ')' := fun hc => h (by simp [hc])
    by_cases hl : c = '('
    · simp [close?, isParen, hl]
    · have hrest := ih hs
      unfold close? at hrest ⊢
      rw [List.cons_append, List.dropWhile_cons_of_pos (by simp [isParen, hc, hl])]
      split at hrest
      · cases hrest
      · rfl

/-- A group closes at the first parenthesis if that is a `)`. -/
theorem close?_of_right {inside : Text} (h : ∀ c ∈ inside, isParen c = false) (after : Text) :
    close? (inside ++ ')' :: after) = some (inside, after) := by
  have hp : ∀ c ∈ inside, !isParen c := fun c hc => by rw [h c hc]; rfl
  unfold close?
  rw [List.dropWhile_append_of_pos hp, List.takeWhile_append_of_pos hp]
  simp [isParen]

/-- In a loose text, a group closes exactly where a `)` stands. -/
theorem close?_eq_none_iff {t : Text} (h : Loose t) : close? t = none ↔ ')' ∉ t := by
  constructor
  · intro hnone
    have hsplit := List.takeWhile_append_dropWhile (p := fun c => !isParen c) (l := t)
    have hhead := List.head?_dropWhile_not (fun c => !isParen c) t
    have htake : ')' ∉ t.takeWhile fun c => !isParen c := fun hm =>
      absurd (List.all_eq_true.mp List.all_takeWhile _ hm) (by decide)
    unfold close? at hnone
    -- what stands behind the characters that are no parentheses is nothing, or begins with a `(`
    rcases hd : t.dropWhile fun c => !isParen c with _ | ⟨c, rest⟩
    · rw [hd, List.append_nil] at hsplit
      rwa [hsplit] at htake
    · rw [hd] at hnone hhead hsplit
      have hc : c = '(' := by
        have hparen : c ≠ '(' → c = ')' := by simpa [isParen] using hhead
        refine Decidable.byContradiction fun hc => ?_
        rw [hparen hc] at hnone
        cases hnone
      subst hc
      rw [← hsplit]
      intro hm
      rcases List.mem_append.mp hm with hm | hm
      · exact htake hm
      · exact h _ rest hsplit.symm (by simpa using hm)
  · intro hmem
    cases hc : close? t with
    | none => rfl
    | some parts =>
      obtain ⟨inside, after⟩ := parts
      rw [eq_of_close? hc] at hmem
      simp at hmem

/-- **Exactly the loose texts have no group.** -/
theorem find?_eq_none_iff {t : Text} : find? t = none ↔ Loose t := by
  induction t with
  | nil => exact ⟨fun _ => loose_of_not_mem_left (by simp), fun _ => rfl⟩
  | cons c t ih =>
    have hstep : find? (c :: t) = none ↔ (c = '(' → close? t = none) ∧ find? t = none := by
      rw [find?]
      by_cases hc : c = '('
      · cases close? t <;> simp [hc]
      · simp [hc]
    rw [hstep, loose_cons, ih]
    exact and_congr_left fun ht => by rw [close?_eq_none_iff ht]

/-- **A group behind a loose text is found.** -/
theorem find?_of_loose {before inside : Text} (hbefore : Loose before) (hinside : ∀ c ∈ inside, isParen c = false)
    (after : Text) : find? (before ++ '(' :: (inside ++ ')' :: after)) = some ⟨before, inside, after⟩ := by
  induction before with
  | nil => simp [find?, close?_of_right hinside]
  | cons c before ih =>
    obtain ⟨hc, hbefore⟩ := loose_cons.mp hbefore
    rw [List.cons_append, find?]
    have hnone : (if c = '(' then close? (before ++ '(' :: (inside ++ ')' :: after)) else none) = none := by
      split
      · exact close?_of_left (hc ‹_›) _
      · rfl
    rw [hnone, ih hbefore]
    rfl

end Group

/-! ## Nests -/

/-- A text with its matched parentheses put together, built from the left. -/
inductive Nest
  | empty
  | char (front : Nest) (c : Char)
  | group (front inside : Nest)
  deriving DecidableEq, Repr

namespace Nest

/-- The text of a nest. -/
def spell : Nest → Text
  | empty => []
  | char front c => front.spell ++ [c]
  | group front inside => front.spell ++ '(' :: (inside.spell ++ [')'])

/-- The characters outside of all groups. -/
def outside : Nest → Text
  | empty => []
  | char front c => front.outside ++ [c]
  | group front _ => front.outside

/-- A nest behind another one. -/
def append (front : Nest) : Nest → Nest
  | empty => front
  | char n c => (front.append n).char c
  | group n inside => (front.append n).group inside

/-- All parentheses match. -/
def Closed : Nest → Prop
  | empty => True
  | char front c => front.Closed ∧ Group.isParen c = false
  | group front inside => front.Closed ∧ inside.Closed

/-- All parentheses within groups match. -/
def Tidy : Nest → Prop
  | empty => True
  | char front _ => front.Tidy
  | group front inside => front.Tidy ∧ inside.Closed

@[simp] theorem spell_append (m n : Nest) : (m.append n).spell = m.spell ++ n.spell := by
  induction n with
  | empty => simp [append, spell]
  | char n c ih => simp [append, spell, ih]
  | group n inside ih _ => simp [append, spell, ih]

@[simp] theorem outside_append (m n : Nest) : (m.append n).outside = m.outside ++ n.outside := by
  induction n with
  | empty => simp [append, outside]
  | char n c ih => simp [append, outside, ih]
  | group n inside ih _ => simp [append, outside, ih]

theorem Tidy.append {m n : Nest} (hm : m.Tidy) (hn : n.Tidy) : (m.append n).Tidy := by
  induction n with
  | empty => exact hm
  | char n c ih => exact ih hn
  | group n inside ih _ => exact ⟨ih hn.1, hn.2⟩

theorem Closed.tidy {n : Nest} (h : n.Closed) : n.Tidy := by
  induction n with
  | empty => trivial
  | char n c ih => exact ih h.1
  | group n inside ih _ => exact ⟨ih h.1, h.2⟩

theorem Closed.outside {n : Nest} (h : n.Closed) : ∀ c ∈ n.outside, Group.isParen c = false := by
  induction n with
  | empty => simp [Nest.outside]
  | char n c ih =>
    intro d hd
    rcases List.mem_append.mp hd with hd | hd
    · exact ih h.1 d hd
    · rw [List.mem_singleton.mp hd]; exact h.2
  | group n inside ih _ => exact ih h.1

end Nest

/-! ## Matching with a stack -/

/-- What has been read: the texts in front of the open parentheses, the innermost first, and the text behind the
last one of these. -/
structure Matching where
  stack : List Nest := []
  current : Nest := .empty

namespace Matching

/-- Reads a character. A `)` closes the innermost open parenthesis, and matches nothing if there is none. -/
def step (m : Matching) (c : Char) : Matching :=
  if c = '(' then ⟨m.current :: m.stack, .empty⟩
  else if c = ')' then
    match m.stack with
    | [] => ⟨[], m.current.char c⟩
    | front :: stack => ⟨stack, front.group m.current⟩
  else ⟨m.stack, m.current.char c⟩

/-- The nest at the end of a text: parentheses that are still open match nothing. -/
def finish : List Nest → Nest → Nest
  | [], current => current
  | front :: stack, current => finish stack ((front.char '(').append current)

/-- The text in front of the innermost open parenthesis, and that parenthesis. -/
def opened : List Nest → Text
  | [] => []
  | front :: stack => opened stack ++ front.spell ++ ['(']

/-- Behind an open parenthesis all parentheses match so far, and in front of all open ones no `(` is unmatched. -/
def WellNested : List Nest → Nest → Prop
  | [], current => current.Tidy ∧ '(' ∉ current.outside
  | front :: stack, current => current.Closed ∧ WellNested stack front

theorem spell_step (m : Matching) (c : Char) :
    opened (m.step c).stack ++ (m.step c).current.spell = opened m.stack ++ m.current.spell ++ [c] := by
  obtain ⟨stack, current⟩ := m
  unfold step
  split
  · rename_i hc; simp [opened, Nest.spell, hc]
  · split
    · rename_i hc
      cases stack with
      | nil => simp [opened, Nest.spell]
      | cons front stack => simp [opened, Nest.spell, hc]
    · simp [Nest.spell]

theorem spell_finish (stack : List Nest) (current : Nest) :
    (finish stack current).spell = opened stack ++ current.spell := by
  induction stack generalizing current with
  | nil => rfl
  | cons front stack ih => simp [finish, opened, ih, Nest.spell]

theorem WellNested.step {m : Matching} (h : WellNested m.stack m.current) (c : Char) :
    WellNested (m.step c).stack (m.step c).current := by
  obtain ⟨stack, current⟩ := m
  unfold Matching.step
  split
  · exact ⟨trivial, h⟩
  · rename_i hl
    split
    · rename_i hr
      rcases stack with _ | ⟨front, _ | ⟨below, stack⟩⟩
      · exact ⟨h.1, by simpa [Nest.outside, hr] using h.2⟩
      · exact ⟨⟨h.2.1, h.1⟩, h.2.2⟩
      · exact ⟨⟨h.2.1, h.1⟩, h.2.2⟩
    · rename_i hr
      rcases stack with _ | ⟨front, stack⟩
      · exact ⟨h.1, by simpa [Nest.outside, Ne.symm hl] using h.2⟩
      · exact ⟨⟨h.1, by simp [Group.isParen, hl, hr]⟩, h.2⟩

/-- With the open parentheses unmatched, groups are tidy and the rest is loose. -/
theorem WellNested.finish_cons {stack : List Nest} {front : Nest} (h : WellNested stack front) {current : Nest}
    (htidy : current.Tidy) (hright : ')' ∉ current.outside) :
    (finish stack ((front.char '(').append current)).Tidy ∧
      Loose (finish stack ((front.char '(').append current)).outside := by
  induction stack generalizing front current with
  | nil =>
    refine ⟨Nest.Tidy.append h.1 htidy, ?_⟩
    rw [finish, Nest.outside_append, loose_append]
    refine ⟨?_, loose_of_not_mem_right hright, fun _ => hright⟩
    rw [Nest.outside, loose_append]
    exact ⟨loose_of_not_mem_left h.2, loose_of_not_mem_right (by simp), fun hm => absurd hm h.2⟩
  | cons below stack ih =>
    have hfront := h.1.outside
    refine ih h.2 (Nest.Tidy.append (m := front.char '(') h.1.tidy htidy) ?_
    rw [Nest.outside_append, Nest.outside]
    intro hm
    simp only [List.mem_append, List.mem_singleton] at hm
    rcases hm with (hm | hm) | hm
    · exact absurd (hfront _ hm) (by decide)
    · exact absurd hm (by decide)
    · exact hright hm

end Matching

/-- The text with its matched parentheses put together. -/
def nesting (t : Text) : Nest :=
  let m := t.foldl Matching.step {}
  Matching.finish m.stack m.current

theorem spell_foldl_step (t : Text) (m : Matching) :
    Matching.opened (t.foldl Matching.step m).stack ++ (t.foldl Matching.step m).current.spell =
      Matching.opened m.stack ++ m.current.spell ++ t := by
  induction t generalizing m with
  | nil => simp
  | cons c t ih => rw [List.foldl_cons, ih, Matching.spell_step]; simp

/-- **Matching parentheses loses nothing of a text.** -/
theorem spell_nesting (t : Text) : (nesting t).spell = t := by
  rw [nesting, Matching.spell_finish, spell_foldl_step]
  rfl

-- the first ( of the one and the last ) of the other match nothing
example : nesting ['(', 'a', '(', 'b', ')'] = ((Nest.empty.char '(').char 'a').group (Nest.empty.char 'b') ∧
    nesting ['(', ')', ')'] = (Nest.empty.group .empty).char ')' := by decide

theorem wellNested_foldl_step {m : Matching} (h : Matching.WellNested m.stack m.current) (t : Text) :
    Matching.WellNested (t.foldl Matching.step m).stack (t.foldl Matching.step m).current := by
  induction t generalizing m with
  | nil => exact h
  | cons c t ih => exact ih (h.step c)

/-- The groups of a text are tidy, and outside of them it is loose. -/
theorem tidy_and_loose_nesting (t : Text) : (nesting t).Tidy ∧ Loose (nesting t).outside := by
  have h := wellNested_foldl_step (m := {}) ⟨trivial, by simp [Nest.outside]⟩ t
  rw [nesting]
  generalize t.foldl Matching.step {} = m at h
  obtain ⟨_ | ⟨front, stack⟩, current⟩ := m
  · exact ⟨h.1, loose_of_not_mem_left h.2⟩
  · refine h.2.finish_cons h.1.tidy fun hm => ?_
    exact absurd (h.1.outside _ hm) (by decide)

/-! ## Nested parentheses -/

/-- Texts in which no `)` comes too early and no `(` is left open. -/
structure Nested (t : Text) : Prop where
  nested : ∀ u v, t = u ++ v → u.count ')' ≤ u.count '('
  balanced : t.count ')' = t.count '('

theorem nested_iff_inits {t : Text} :
    Nested t ↔ (∀ u ∈ t.inits, u.count ')' ≤ u.count '(') ∧ t.count ')' = t.count '(' := by
  constructor
  · intro h
    refine ⟨fun u hu => ?_, h.balanced⟩
    obtain ⟨v, hv⟩ := (List.mem_inits u t).mp hu
    exact h.nested u v hv.symm
  · rintro ⟨hnested, hbalanced⟩
    exact ⟨fun u v huv => hnested u ((List.mem_inits u t).mpr ⟨v, huv.symm⟩), hbalanced⟩

instance (t : Text) : Decidable (Nested t) := decidable_of_iff _ nested_iff_inits.symm

/-- Characters that are no parentheses may be left out. -/
theorem Nested.filter {t : Text} (h : Nested t) {keep : Char → Bool} (hleft : keep '(') (hright : keep ')') :
    Nested (t.filter keep) where
  nested := by
    intro u v huv
    obtain ⟨u, v, rfl, rfl, rfl⟩ := List.filter_eq_append_iff.mp huv
    rw [List.count_filter hleft, List.count_filter hright]
    exact h.nested u v rfl
  balanced := by
    rw [List.count_filter hleft, List.count_filter hright]
    exact h.balanced

namespace Nest

/-- What unbalances a tidy nest stands outside of its groups. -/
theorem Tidy.count_spell {n : Nest} (h : n.Tidy) :
    n.spell.count '(' + n.outside.count ')' = n.outside.count '(' + n.spell.count ')' := by
  induction n with
  | empty => rfl
  | char front c ih =>
    have hfront := ih h
    simp only [spell, outside, List.count_append]
    omega
  | group front inside ih ih' =>
    have hfront := ih h.1
    have hinside := ih' h.2.tidy
    have hnone : ∀ c, Group.isParen c → inside.outside.count c = 0 := by
      intro c hc
      rw [List.count_eq_zero]
      intro hmem
      rw [h.2.outside c hmem] at hc
      cases hc
    rw [hnone '(' rfl, hnone ')' rfl] at hinside
    simp only [spell, outside, List.count_append, List.count_cons, List.count_nil, beq_self_eq_true, if_true,
      beq_iff_eq, Char.reduceEq, if_false]
    omega

/-- A tidy nest without parentheses outside of its groups is closed. -/
theorem Tidy.closed {n : Nest} (h : n.Tidy) (houtside : ∀ c ∈ n.outside, Group.isParen c = false) : n.Closed := by
  induction n with
  | empty => trivial
  | char front c ih =>
    exact ⟨ih h fun d hd => houtside d (List.mem_append_left _ hd), houtside c (by simp [outside])⟩
  | group front inside ih _ => exact ⟨ih h.1 houtside, h.2⟩

/-- If no `)` comes too early, none is unmatched. -/
theorem Tidy.right_not_mem_outside {n : Nest} (h : n.Tidy) (hloose : Loose n.outside)
    (hnested : ∀ u v, n.spell = u ++ v → u.count ')' ≤ u.count '(') : ')' ∉ n.outside := by
  induction n with
  | empty => simp [outside]
  | char front c ih =>
    obtain ⟨hfront, -, hleft⟩ := loose_append.mp hloose
    have hprefix : ∀ u v, front.spell = u ++ v → u.count ')' ≤ u.count '(' := by
      intro u v huv
      exact hnested u (v ++ [c]) (by rw [spell, huv, List.append_assoc])
    have hnone := ih h hfront hprefix
    intro hmem
    rcases List.mem_append.mp hmem with hmem | hmem
    · exact hnone hmem
    · -- the first unmatched `)` would be one too many
      obtain rfl := List.mem_singleton.mp hmem
      have hleft' : '(' ∉ front.outside := fun hm => hleft hm hmem
      have hcount := Tidy.count_spell (n := front) h
      have htoo := hnested (front.spell ++ [')']) [] (by simp [spell])
      rw [List.count_eq_zero.mpr hleft', List.count_eq_zero.mpr hnone] at hcount
      simp [List.count_append] at htoo
      omega
  | group front inside ih _ =>
    refine ih h.1 hloose fun u v huv => ?_
    exact hnested u (v ++ '(' :: (inside.spell ++ [')'])) (by rw [spell, huv, List.append_assoc])

end Nest

/-- **In a text with nested parentheses all of them match.** -/
theorem closed_nesting {t : Text} (h : Nested t) : (nesting t).Closed := by
  obtain ⟨htidy, hloose⟩ := tidy_and_loose_nesting t
  have hnested := h.nested
  have hbalanced := h.balanced
  rw [← spell_nesting t] at hnested hbalanced
  have hright := htidy.right_not_mem_outside hloose hnested
  have hleft : '(' ∉ (nesting t).outside := by
    have hcount := htidy.count_spell
    rw [List.count_eq_zero.mpr hright] at hcount
    rw [← List.count_eq_zero]
    omega
  refine htidy.closed fun c hc => ?_
  cases hparen : Group.isParen c with
  | false => rfl
  | true =>
    have hlr : c = '(' ∨ c = ')' := by simpa [Group.isParen] using hparen
    rcases hlr with rfl | rfl
    · exact absurd hc hleft
    · exact absurd hc hright

end TabletopDice
