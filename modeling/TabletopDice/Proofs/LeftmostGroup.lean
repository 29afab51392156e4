import TabletopDice.Proofs.Places

/-!
# The leftmost group of a text

Which group is found is said here without tokens: by the characters that stand at byte offsets of a text.

- `Text.HasAt` says which character stands at an offset. Characters at two offsets split the text (`HasAt.split`), so a
  text is loose if no `)` stands at a higher offset than a `(` (`loose_iff_hasAt`);
- a `Pair` is a `(` and a `)` behind it, with no parenthesis between them. A group found is a pair (`Group.pair`), and the
  text in front of it is loose (`Group.loose_of_find?`);
- a pair behind a loose text begins and ends in front of any other one (`Pair.le`).

The main statement is `group_found_leftmost`.
-/

namespace TabletopDice

/-! ## Characters at offsets -/

/-- The character that begins at a byte offset of a text. -/
def Text.HasAt (t : Text) (offset : Nat) (c : Char) : Prop := ∃ u v, t = u ++ c :: v ∧ u.byteSize = offset

namespace Text

/-- Parts of a text that have the same number of bytes in front of them are the same. -/
theorem append_inj_of_byteSize {u v u' v' : Text} (h : u ++ v = u' ++ v') (hsize : u.byteSize = u'.byteSize) :
    u = u' ∧ v = v' := by
  obtain rfl : u = u' := by
    rw [← takeBytes_byteSize_append u v, h, hsize, takeBytes_byteSize_append]
  exact ⟨rfl, List.append_cancel_left h⟩

theorem byteSize_lt_append_cons (u : Text) (c : Char) (v : Text) : u.byteSize < byteSize (u ++ c :: v) := by
  have hc := c.utf8Size_pos
  rw [byteSize_append, byteSize_cons]
  omega

theorem hasAt_byteSize (u : Text) (c : Char) (v : Text) : HasAt (u ++ c :: v) u.byteSize c := ⟨u, v, rfl, rfl⟩

theorem HasAt.unique {t : Text} {offset : Nat} {c d : Char} (hc : t.HasAt offset c) (hd : t.HasAt offset d) : c = d := by
  obtain ⟨u, v, rfl, hu⟩ := hc
  obtain ⟨u', v', h, hu'⟩ := hd
  exact (List.cons.inj (append_inj_of_byteSize h (hu.trans hu'.symm)).2).1

/-- A character that begins within a part of a text stands in that part. -/
theorem HasAt.of_append {s r : Text} {offset : Nat} {c : Char} (h : HasAt (s ++ r) offset c)
    (hlt : offset < s.byteSize) : s.HasAt offset c := by
  obtain ⟨u, v, h, rfl⟩ := h
  rcases List.append_eq_append_iff.mp h with ⟨a, rfl, -⟩ | ⟨a, rfl, ha⟩
  · rw [byteSize_append] at hlt
    omega
  · rcases a with _ | ⟨d, a⟩
    · simp at hlt
    · obtain ⟨rfl, -⟩ := List.cons.inj ha
      exact hasAt_byteSize u c a

/-- Two characters, the one at the lower offset in front of the other. -/
theorem HasAt.split {t : Text} {i j : Nat} {c d : Char} (hc : t.HasAt i c) (hd : t.HasAt j d) (hij : i < j) :
    ∃ u w v, t = u ++ c :: (w ++ d :: v) ∧ u.byteSize = i ∧ byteSize (u ++ c :: w) = j := by
  obtain ⟨s, v, rfl, rfl⟩ := hd
  obtain ⟨u, w, rfl, hu⟩ := hc.of_append hij
  exact ⟨u, w, v, by simp, hu, rfl⟩

end Text

/-- **A text is loose if no `)` stands at a higher offset than a `(`.** -/
theorem loose_iff_hasAt {t : Text} : Loose t ↔ ∀ i j, t.HasAt i '(' → t.HasAt j ')' → ¬ i < j := by
  constructor
  · intro h i j hi hj hij
    obtain ⟨u, w, v, rfl, -, -⟩ := hi.split hj hij
    exact h u _ rfl (by simp)
  · rintro h u v rfl hm
    obtain ⟨w, v, rfl⟩ := List.append_of_mem hm
    have hclose := Text.hasAt_byteSize (u ++ '(' :: w) ')' v
    rw [List.append_assoc] at hclose
    exact h _ _ (Text.hasAt_byteSize u '(' _) hclose (Text.byteSize_lt_append_cons u '(' w)

/-! ## Pairs of parentheses -/

/-- A `(` at the first byte of a span, a `)` at its last one, and no parenthesis between them. -/
structure Pair (t : Text) (span : Span) : Prop where
  opens : t.HasAt span.start '('
  closes : t.HasAt (span.stop - 1) ')'
  lt : span.start < span.stop - 1
  between : ∀ offset c, span.start < offset → offset < span.stop - 1 → t.HasAt offset c → c ≠ '(' ∧ c ≠ ')'

/-- The `)` of a group is its last byte. -/
theorem Group.stop_sub_one (g : Group) : g.stop - 1 = Text.byteSize (g.before ++ '(' :: g.inside) := by
  have hopen : ('(' : Char).utf8Size = 1 := rfl
  have hclose : (')' : Char).utf8Size = 1 := rfl
  simp only [stop, start, text, Text.byteSize_cons, Text.byteSize_append, Text.byteSize_nil, hopen, hclose]
  omega

/-- A group without parentheses inside is a pair. -/
theorem Group.pair {g : Group} (h : ∀ c ∈ g.inside, isParen c = false) : Pair (g.before ++ g.text ++ g.after) g.span := by
  have htext : g.before ++ g.text ++ g.after = (g.before ++ '(' :: g.inside) ++ ')' :: g.after := by simp [text]
  have hopen := Text.hasAt_byteSize g.before '(' g.inside
  rw [htext]
  refine ⟨⟨g.before, _, List.append_assoc .., rfl⟩, ?_, ?_, fun offset c hstart hstop hc => ?_⟩
  · rw [span, stop_sub_one]
    exact Text.hasAt_byteSize _ _ _
  · rw [span, stop_sub_one]
    exact Text.byteSize_lt_append_cons _ _ _
  · -- the character stands behind the `(`, within the text up to the `)`
    rw [span, stop_sub_one] at hstop
    obtain ⟨u, w, v, hsplit, hu, -⟩ := hopen.split (hc.of_append hstop) hstart
    obtain ⟨-, hinside⟩ := List.cons.inj (Text.append_inj_of_byteSize hsplit hu.symm).2
    have hparen := h c (by rw [hinside]; simp)
    constructor <;> (rintro rfl; cases hparen)

/-- **What stands in front of the group found has no group.** -/
theorem Group.loose_of_find? : ∀ {t : Text} {g : Group}, find? t = some g → Loose g.before
  | [], _, h => by cases h
  | c :: rest, g, h => by
    simp only [find?] at h
    split at h
    · obtain rfl := Option.some.inj h
      exact loose_of_not_mem_left (by simp)
    · rename_i hnone
      obtain ⟨g', hg', rfl⟩ := Option.map_eq_some_iff.mp h
      have hloose := loose_of_find? hg'
      refine loose_cons.mpr ⟨fun hc hm => ?_, hloose⟩
      -- the `)` would have closed the first character
      obtain ⟨⟨inside, after⟩, hclose⟩ := Option.ne_none_iff_exists'.mp fun hno =>
        (close?_eq_none_iff hloose).mp hno hm
      rw [if_pos hc, eq_of_find? hg', eq_of_close? hclose, List.append_assoc, List.append_assoc, List.cons_append,
        close?_of_right (not_paren_of_close? hclose)] at hnone
      cases hnone

/-- **A pair with no other one in front of its `(` begins and ends first.** -/
theorem Pair.le {t : Text} {span other : Span} (h : Pair t span)
    (hfront : ∀ i j, t.HasAt i '(' → t.HasAt j ')' → i < j → span.start ≤ j) (hother : Pair t other) :
    span.start ≤ other.start ∧ span.stop ≤ other.stop := by
  have hle := hfront _ _ hother.opens hother.closes hother.lt
  have hne : span.start ≠ other.stop - 1 := by
    intro he
    have hopen := h.opens
    rw [he] at hopen
    exact absurd (hopen.unique hother.closes) (by decide)
  have hstop : span.stop - 1 ≤ other.stop - 1 := by
    refine Nat.not_lt.mp fun hlt => ?_
    exact (h.between _ _ (by omega) hlt hother.closes).2 rfl
  have hstart : span.start ≤ other.start := by
    refine Nat.not_lt.mp fun hlt => ?_
    exact (hother.between _ _ hlt (by have := h.lt; omega) h.opens).1 rfl
  have := h.lt
  exact ⟨hstart, by omega⟩

/-- The group found is a pair, and the first one. -/
theorem Group.pair_of_find? {t : Text} {g : Group} (h : find? t = some g) :
    Pair t g.span ∧ ∀ other, Pair t other → g.span.start ≤ other.start ∧ g.span.stop ≤ other.stop := by
  have hpair := g.pair (not_paren_of_find? h)
  rw [← eq_of_find? h] at hpair
  refine ⟨hpair, fun other hother => hpair.le (fun i j hi hj hij => Nat.not_lt.mp fun hlt => ?_) hother⟩
  rw [eq_of_find? h, List.append_assoc] at hi hj
  exact loose_iff_hasAt.mp (loose_of_find? h) i j (hi.of_append (Nat.lt_trans hij hlt)) (hj.of_append hlt) hij

/-- **The group that is found among the tokens is the leftmost innermost one.** It is a pair that no other pair begins or
ends in front of, and there is none only if no `)` stands behind a `(`. A loose text in front of a group, whatever
parentheses it has, does not hide it, and neither does anything behind it. -/
theorem group_found_leftmost (t : Text) :
    locateGroup? none (tokens t) = (Group.find? t).map Group.span ∧
    (∀ span, locateGroup? none (tokens t) = some span ↔
      Pair t span ∧ ∀ other, Pair t other → span.start ≤ other.start ∧ span.stop ≤ other.stop) ∧
    (locateGroup? none (tokens t) = none ↔ ∀ i j, t.HasAt i '(' → t.HasAt j ')' → ¬ i < j) ∧
    ∀ before inside after, Loose before → (∀ c ∈ inside, c ≠ '(' ∧ c ≠ ')') →
      locateGroup? none (tokens (before ++ '(' :: (inside ++ ')' :: after))) =
        some (Span.behind before ('(' :: (inside ++ [')']))) := by
  have hnone : locateGroup? none (tokens t) = none ↔ ∀ i j, t.HasAt i '(' → t.HasAt j ')' → ¬ i < j := by
    rw [locateGroup?_tokens, Option.map_eq_none_iff, Group.find?_eq_none_iff, loose_iff_hasAt]
  have hfound {span : Span} (h : locateGroup? none (tokens t) = some span) :
      Pair t span ∧ ∀ other, Pair t other → span.start ≤ other.start ∧ span.stop ≤ other.stop := by
    rw [locateGroup?_tokens] at h
    obtain ⟨g, hg, rfl⟩ := Option.map_eq_some_iff.mp h
    exact Group.pair_of_find? hg
  refine ⟨locateGroup?_tokens t, fun span => ⟨hfound, fun ⟨hpair, hfirst⟩ => ?_⟩, hnone, ?_⟩
  · cases hlocate : locateGroup? none (tokens t) with
    | none => exact absurd hpair.lt (hnone.mp hlocate _ _ hpair.opens hpair.closes)
    | some found =>
      obtain ⟨hpair', hfirst'⟩ := hfound hlocate
      have hle := hfirst found hpair'
      have hge := hfirst' span hpair
      exact congrArg some (Span.mk.injEq .. ▸ ⟨by omega, by omega⟩)
  · intro before inside after hbefore hinside
    have hparen : ∀ c ∈ inside, Group.isParen c = false := fun c hc => by simp [Group.isParen, hinside c hc]
    rw [locateGroup?_tokens, Group.find?_of_loose hbefore hparen]
    rfl

-- a `)` that closes nothing, two `(` that are not closed, and a `)` too many
example : locateGroup? none (tokens [')', '(', 'é', '(', '4', ')', ')']) = some ⟨4, 7⟩ := by decide

end TabletopDice
