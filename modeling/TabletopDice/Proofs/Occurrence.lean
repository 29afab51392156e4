import TabletopDice.Proofs.Row
import TabletopDice.Rule

/-!
# Leftmost occurrences of rules

- `Rule.Redex` lists the rows that a rule replaces (`redex_of_head?`);
- `Rule.find?` gives the leftmost redex, and all of it (`find?_eq_some_iff`, `find?_eq_none_iff`). A redex behind a row
  without the rule's character is the leftmost one (`find?_of_front`), and a rule occurs wherever its character has its
  numerals next to it (`find?_ne_none_iff`);
- the lexemes of a text in which a redex has been replaced are those of the text, with the row of the integer in the
  place of the redex (`lexemes_replace`): no lexeme around a redex changes.
-/

namespace TabletopDice

open Lexeme

/-- The character that a rule looks for. -/
def Rule.mark : Rule → Char
  | dice => 'd'
  | binary op => op.mark

namespace Rule

/-- The rows that a rule replaces. -/
inductive Redex : Rule → List Lexeme → Prop
  | die (sides : Text) : Redex dice [.mark 'd', numeral sides]
  | dice (count sides : Text) : Redex dice [numeral count, .mark 'd', numeral sides]
  | binary (op : Operator) (left right : Text) : Redex (binary op) [numeral left, .mark op.mark, numeral right]

theorem Redex.ne_nil {rule : Rule} {matched : List Lexeme} (h : Redex rule matched) : matched ≠ [] := by
  cases h <;> simp

theorem Redex.getLast? {rule : Rule} {matched : List Lexeme} (h : Redex rule matched) :
    ∃ ds, matched.getLast? = some (numeral ds) := by
  cases h <;> exact ⟨_, rfl⟩

/-- A redex begins with a numeral or a `d`. -/
theorem Redex.head? {rule : Rule} {matched : List Lexeme} (h : Redex rule matched) :
    (∃ ds, matched.head? = some (numeral ds)) ∨ matched.head? = some (.mark 'd') := by
  cases h
  · exact Or.inr rfl
  · exact Or.inl ⟨_, rfl⟩
  · exact Or.inl ⟨_, rfl⟩

/-- A redex that is no dice begins with a numeral. -/
theorem Redex.head?_of_ne_dice {rule : Rule} {matched : List Lexeme} (h : Redex rule matched) (hrule : rule ≠ .dice) :
    ∃ ds, matched.head? = some (numeral ds) := by
  cases h
  · exact absurd rfl hrule
  · exact absurd rfl hrule
  · exact ⟨_, rfl⟩

/-- Behind a numeral, a redex that begins with a `d` makes a longer one. -/
theorem Redex.head?_numeral_ne_none {rule : Rule} {matched : List Lexeme} (h : Redex rule matched)
    (hd : matched.head? = some (.mark 'd')) (count : Text) (after : List Lexeme) :
    rule.head? (numeral count :: (matched ++ after)) ≠ none := by
  cases h
  · simp [Rule.head?]
  · cases hd
  · cases hd

/-! ## The front of a row -/

/-- What a rule takes from the front of a row is a redex. -/
theorem redex_of_head? {rule : Rule} {row matched after : List Lexeme} (h : rule.head? row = some (matched, after)) :
    Redex rule matched := by
  unfold head? at h
  split at h
  · split at h
    · rename_i hc
      obtain ⟨rfl, -⟩ := Prod.mk.injEq .. ▸ Option.some.inj h
      exact hc ▸ .dice _ _
    · cases h
  · split at h
    · rename_i hc
      obtain ⟨rfl, -⟩ := Prod.mk.injEq .. ▸ Option.some.inj h
      exact hc ▸ .die _
    · cases h
  · split at h
    · rename_i hc
      obtain ⟨rfl, -⟩ := Prod.mk.injEq .. ▸ Option.some.inj h
      exact hc ▸ .binary _ _ _
    · cases h
  · cases h

/-- A rule takes a redex from the front of a row. -/
theorem head?_redex {rule : Rule} {matched : List Lexeme} (h : Redex rule matched) (after : List Lexeme) :
    rule.head? (matched ++ after) = some (matched, after) := by
  cases h <;> simp [head?]

/-- A rule takes nothing from the front if its character stands neither there nor behind a numeral there. -/
theorem head?_eq_none_of {rule : Rule} {x : Lexeme} {row : List Lexeme} (hx : x ≠ .mark rule.mark)
    (hrow : x.isInteger → row.head? ≠ some (.mark rule.mark)) : rule.head? (x :: row) = none := by
  unfold head?
  split
  · rename_i heq
    obtain ⟨rfl, rfl⟩ := List.cons.inj heq
    rw [if_neg]
    rintro rfl
    exact hrow rfl rfl
  · rename_i heq
    obtain ⟨rfl, rfl⟩ := List.cons.inj heq
    rw [if_neg]
    rintro rfl
    exact hx rfl
  · rename_i heq
    obtain ⟨rfl, rfl⟩ := List.cons.inj heq
    rw [if_neg]
    rintro rfl
    exact hrow rfl rfl
  · rfl

theorem head?_nil (rule : Rule) : rule.head? [] = none := by
  cases rule <;> rfl

/-! ## The leftmost occurrence -/

/-- **A rule does not occur exactly if no end of the row begins with a redex.** -/
theorem find?_eq_none_iff {rule : Rule} {row : List Lexeme} :
    rule.find? row = none ↔ ∀ u v, row = u ++ v → rule.head? v = none := by
  induction row with
  | nil =>
    refine ⟨fun _ u v h => ?_, fun _ => rfl⟩
    obtain ⟨-, rfl⟩ := List.append_eq_nil_iff.mp h.symm
    exact head?_nil rule
  | cons x rest ih =>
    have hstep : rule.find? (x :: rest) = none ↔ rule.head? (x :: rest) = none ∧ rule.find? rest = none := by
      simp only [find?]
      cases rule.head? (x :: rest) <;> simp
    rw [hstep, ih]
    constructor
    · rintro ⟨hx, hrest⟩ u v h
      rcases u with _ | ⟨y, u⟩
      · rw [List.nil_append] at h; rw [← h]; exact hx
      · exact hrest u v (List.cons.inj h).2
    · intro h
      exact ⟨h [] _ rfl, fun u v huv => h (x :: u) v (by rw [huv]; rfl)⟩

theorem find?_cons_of_head? {rule : Rule} {x : Lexeme} {row matched after : List Lexeme}
    (h : rule.head? (x :: row) = some (matched, after)) : rule.find? (x :: row) = some ⟨[], matched, after⟩ := by
  rw [find?, h]

theorem find?_cons_of_none {rule : Rule} {x : Lexeme} {row : List Lexeme} (h : rule.head? (x :: row) = none) :
    rule.find? (x :: row) = (rule.find? row).map fun m => { m with before := x :: m.before } := by
  rw [find?, h]

/-- The row splits around a redex, and no end of the row that begins earlier begins with one. -/
def Leftmost (rule : Rule) (row : List Lexeme) (m : Match) : Prop :=
  row = m.before ++ m.matched ++ m.after ∧ Redex rule m.matched ∧
    ∀ u v, m.before = u ++ v → v ≠ [] → rule.head? (v ++ m.matched ++ m.after) = none

theorem leftmost_of_find? {rule : Rule} {row : List Lexeme} {m : Match} (h : rule.find? row = some m) :
    Leftmost rule row m := by
  induction row generalizing m with
  | nil => cases h
  | cons x rest ih =>
    cases hhead : rule.head? (x :: rest) with
    | some found =>
      obtain ⟨matched, after⟩ := found
      rw [find?_cons_of_head? hhead] at h
      obtain rfl := Option.some.inj h
      refine ⟨row_eq_of_head? hhead, redex_of_head? hhead, fun u v huv hv => ?_⟩
      exact absurd (List.append_eq_nil_iff.mp huv.symm).2 hv
    | none =>
      rw [find?_cons_of_none hhead] at h
      obtain ⟨m', hm, rfl⟩ := Option.map_eq_some_iff.mp h
      obtain ⟨hsplit, hredex, hleft⟩ := ih hm
      refine ⟨by simp [hsplit], hredex, fun u v huv hv => ?_⟩
      rcases u with _ | ⟨y, u⟩
      · rw [List.nil_append] at huv
        rw [← huv, List.cons_append, List.cons_append, ← hsplit]
        exact hhead
      · exact hleft u v (List.cons.inj huv).2 hv

theorem Leftmost.find? {rule : Rule} {row : List Lexeme} {m : Match} (h : Leftmost rule row m) :
    rule.find? row = some m := by
  obtain ⟨before, matched, after⟩ := m
  obtain ⟨rfl, hredex, hleft⟩ := h
  simp only at hredex hleft
  induction before with
  | nil =>
    have hhead := head?_redex hredex after
    rcases matched with _ | ⟨x, matched⟩
    · exact absurd rfl hredex.ne_nil
    · exact find?_cons_of_head? hhead
  | cons y before ih =>
    have hnone := hleft [] (y :: before) rfl (by simp)
    have hrest := ih fun u v huv hv => hleft (y :: u) v (by rw [huv]; rfl) hv
    simp only [List.cons_append] at hnone ⊢
    rw [find?_cons_of_none hnone, hrest]
    rfl

/-- **An occurrence is the leftmost redex.** -/
theorem find?_eq_some_iff {rule : Rule} {row : List Lexeme} {m : Match} :
    rule.find? row = some m ↔ Leftmost rule row m :=
  ⟨leftmost_of_find?, Leftmost.find?⟩

theorem redex_of_find? {rule : Rule} {row : List Lexeme} {m : Match} (h : rule.find? row = some m) :
    Redex rule m.matched := (find?_eq_some_iff.mp h).2.1

/-- An occurrence splits the text of the row. -/
theorem join_eq_of_find? {rule : Rule} {row : List Lexeme} {m : Match} (h : rule.find? row = some m) :
    join row = join m.before ++ m.text ++ join m.after := by
  rw [row_eq_of_find? h, join_append, join_append]
  rfl

/-- An occurrence splits the text that it stands in. -/
theorem text_eq_of_occurrence? {rule : Rule} {t : Text} {m : Match} (h : rule.occurrence? t = some m) :
    t = join m.before ++ m.text ++ join m.after := by
  rw [← join_eq_of_find? h, join_lexemes]

/-- A redex behind a row without the rule's character is the leftmost one, unless a numeral in front of it belongs
to it. -/
theorem find?_of_front {rule : Rule} {front matched : List Lexeme} (hredex : Redex rule matched)
    (hfront : .mark rule.mark ∉ front)
    (hborder : ∀ x, front.getLast? = some x → x.isInteger → matched.head? ≠ some (.mark rule.mark))
    (after : List Lexeme) : rule.find? (front ++ matched ++ after) = some ⟨front, matched, after⟩ := by
  refine find?_eq_some_iff.mpr ⟨rfl, hredex, fun u v huv hv => ?_⟩
  rcases v with _ | ⟨x, v⟩
  · exact absurd rfl hv
  obtain rfl : front = u ++ x :: v := huv
  rw [List.cons_append, List.cons_append]
  refine head?_eq_none_of (fun hx => hfront (by simp [hx])) fun hx => ?_
  rcases v with _ | ⟨y, v⟩
  · rw [List.nil_append, List.head?_append_of_ne_nil _ hredex.ne_nil]
    exact hborder x (by simp) hx
  · intro hy
    obtain rfl : y = .mark rule.mark := Option.some.inj hy
    exact hfront (by simp)

theorem find?_eq_none_of {rule : Rule} {row : List Lexeme} (h : .mark rule.mark ∉ row) : rule.find? row = none := by
  refine find?_eq_none_iff.mpr fun u v huv => ?_
  rcases v with _ | ⟨x, v⟩
  · exact head?_nil rule
  · refine head?_eq_none_of (fun hx => h (by simp [huv, hx])) fun _ hv => ?_
    exact h (by rw [huv]; exact List.mem_append_right _ (List.mem_cons_of_mem _ (List.mem_of_head? hv)))

/-- A rule that does not occur in a row does not occur at its end. -/
theorem find?_eq_none_of_append {rule : Rule} (front : List Lexeme) {row : List Lexeme}
    (h : rule.find? (front ++ row) = none) : rule.find? row = none :=
  find?_eq_none_iff.mpr fun u v huv => find?_eq_none_iff.mp h (front ++ u) v (by rw [huv, List.append_assoc])

/-- **A rule occurs wherever its character stands in front of a numeral**, and behind one unless it is a `d`. -/
theorem find?_ne_none_iff {rule : Rule} {row : List Lexeme} : rule.find? row ≠ none ↔
    ∃ u ds v, row = u ++ .mark rule.mark :: numeral ds :: v ∧
      (rule = dice ∨ ∃ left, u.getLast? = some (numeral left)) := by
  constructor
  · intro h
    obtain ⟨m, hm⟩ := Option.ne_none_iff_exists'.mp h
    have hrow := row_eq_of_find? hm
    have hredex := redex_of_find? hm
    obtain ⟨before, matched, after⟩ := m
    cases hredex with
    | die sides => exact ⟨before, sides, after, by simp [hrow, Rule.mark], Or.inl rfl⟩
    | dice count sides =>
      exact ⟨before ++ [numeral count], sides, after, by simp [hrow, Rule.mark], Or.inl rfl⟩
    | binary op left right =>
      exact ⟨before ++ [numeral left], right, after, by simp [hrow, Rule.mark], Or.inr ⟨left, by simp⟩⟩
  · rintro ⟨u, ds, v, rfl, hu⟩ hnone
    rcases hu with rfl | ⟨left, hleft⟩
    · have hhead := find?_eq_none_iff.mp hnone u _ rfl
      exact absurd hhead (by simp [head?, Rule.mark])
    · obtain ⟨front, rfl⟩ := List.getLast?_eq_some_iff.mp hleft
      have hhead := find?_eq_none_iff.mp hnone front (numeral left :: .mark rule.mark :: numeral ds :: v) (by simp)
      cases rule <;> exact absurd hhead (by simp [head?, Rule.mark])

/-- No numeral stands in front of an occurrence that begins with its rule's character. -/
theorem not_isInteger_of_find? {rule : Rule} {row : List Lexeme} {m : Match} (h : rule.find? row = some m)
    (hm : m.matched.head? = some (.mark 'd')) : ∀ x, m.before.getLast? = some x → ¬ x.isInteger := by
  obtain ⟨-, hredex, hleft⟩ := find?_eq_some_iff.mp h
  intro x hx hnum
  obtain ⟨u, hu⟩ := List.getLast?_eq_some_iff.mp hx
  have hnone := hleft u [x] hu (by simp)
  cases x with
  | mark c => cases hnum
  | numeral count => exact hredex.head?_numeral_ne_none hm count m.after hnone

end Rule

/-! ## The lexemes around an occurrence -/

/-- The row with an integer in the place of an occurrence. -/
def Match.rewrite (m : Match) (value : Int) : List Lexeme := m.before ++ integerRow value ++ m.after

@[simp] theorem join_rewrite (m : Match) (value : Int) : join (m.rewrite value) = m.replace value := by
  simp [Match.rewrite, Match.replace]

theorem live_rewrite_lt {rule : Rule} {row : List Lexeme} {m : Match} (h : rule.find? row = some m) (value : Int) :
    live (m.rewrite value) < live row := by
  have htwo := Rule.two_le_live_of_find? h
  rw [Rule.row_eq_of_find? h]
  simp only [Match.rewrite, live_append, live_integerRow]
  omega

/-- Numerals are as long as they can be, so none stands in front of an occurrence. -/
theorem not_isInteger_before {rule : Rule} {row : List Lexeme} {m : Match} (h : rule.find? row = some m)
    (hsep : Separated row) : ∀ x, m.before.getLast? = some x → ¬ x.isInteger := by
  have hredex := Rule.redex_of_find? h
  rw [Separated, Rule.row_eq_of_find? h, List.append_assoc, List.isChain_append] at hsep
  obtain ⟨-, -, hborder⟩ := hsep
  intro x hx hnum
  -- the redex begins with a numeral, or with a die that has no count
  rcases hredex.head? with ⟨ds, hds⟩ | hd
  · exact hborder x hx _ (by rw [List.head?_append_of_ne_nil _ hredex.ne_nil]; exact hds) ⟨hnum, rfl⟩
  · exact Rule.not_isInteger_of_find? h hd x hx hnum

theorem separated_rewrite {rule : Rule} {row : List Lexeme} {m : Match} (h : rule.find? row = some m)
    (hsep : Separated row) (value : Int) : Separated (m.rewrite value) := by
  have hfront := not_isInteger_before h hsep
  have hredex := Rule.redex_of_find? h
  unfold Separated at hsep ⊢
  rw [Rule.row_eq_of_find? h, List.append_assoc, List.isChain_append] at hsep
  obtain ⟨hbefore, hrest, -⟩ := hsep
  obtain ⟨-, hafter, hborder⟩ := List.isChain_append.mp hrest
  rw [Match.rewrite, List.append_assoc, List.isChain_append, List.isChain_append]
  refine ⟨hbefore, ⟨by cases value <;> simp [integerRow, isInteger], hafter, ?_⟩, ?_⟩
  · rintro x - y hy ⟨-, hynum⟩
    obtain ⟨ds, hds⟩ := hredex.getLast?
    exact hborder _ hds y hy ⟨rfl, hynum⟩
  · rintro x hx y - ⟨hxnum, -⟩
    exact hfront x hx hxnum

theorem proper_of_mem_rewrite {rule : Rule} {row : List Lexeme} {m : Match} (h : rule.find? row = some m)
    (hproper : ∀ x ∈ row, x.Proper) (value : Int) : ∀ x ∈ m.rewrite value, x.Proper := by
  rw [Rule.row_eq_of_find? h] at hproper
  intro x hx
  rw [Match.rewrite, List.mem_append, List.mem_append] at hx
  rcases hx with (hx | hx) | hx
  · exact hproper x (by simp [hx])
  · exact proper_of_mem_integerRow x hx
  · exact hproper x (by simp [hx])

/-- **Replacing an occurrence changes no lexeme around it.** -/
theorem lexemes_replace {rule : Rule} {t : Text} {m : Match} (h : rule.occurrence? t = some m) (value : Int) :
    lexemes (m.replace value) = m.rewrite value := by
  rw [← join_rewrite]
  exact lexemes_join (proper_of_mem_rewrite h proper_of_mem_lexemes value)
    (separated_rewrite h (separated_lexemes t) value)

end TabletopDice
