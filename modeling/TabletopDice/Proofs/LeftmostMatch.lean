import TabletopDice.Proofs.Digits
import TabletopDice.Proofs.Places

/-!
# The leftmost match of a text

What a rule finds among the tokens of a text is said here without tokens: by the characters of the text alone.

- `Rule.Form` is the form of the texts that a rule replaces, and `LeftmostLongest` splits a text around its first part
  of a form, the longest of those that begin there;
- a character in front of a text moves the occurrence of a rule, or brings one that begins with it (`find?_push`). So an
  occurrence begins no later than any part of the form (`exists_occurrence_le`), by induction on what stands in front of
  that part;
- at the place of an occurrence no longer part has the form, because the numerals of a text are as long as they can be
  (`length_le_of_occurrence?`).

The main statement is `locateIn?_leftmost_longest`.
-/

namespace TabletopDice

open Lexeme

/-- The form of the texts that a rule replaces: digits, the character of the rule, and digits. Only dice may have no
digits in front. -/
def Rule.Form (rule : Rule) (t : Text) : Prop :=
  ∃ left right, t = left ++ rule.mark :: right ∧ (∀ c ∈ left, c.isDigit) ∧ (∀ c ∈ right, c.isDigit) ∧
    (rule = dice ∨ left ≠ []) ∧ right ≠ []

/-- The text is split around a part of the form. None begins earlier, and of those that begin there it is the
longest. -/
structure LeftmostLongest (form : Text → Prop) (t before found after : Text) : Prop where
  split : t = before ++ found ++ after
  has_form : form found
  leftmost : ∀ u v w, t = u ++ v ++ w → form v → before.length ≤ u.length
  longest : ∀ v w, t = before ++ v ++ w → form v → v.length ≤ found.length

/-- There is only one such split. -/
theorem LeftmostLongest.unique {form : Text → Prop} {t u v w u' v' w' : Text} (h : LeftmostLongest form t u v w)
    (h' : LeftmostLongest form t u' v' w') : u = u' ∧ v = v' ∧ w = w' := by
  have hfront : u.length = u'.length :=
    Nat.le_antisymm (h.leftmost u' v' w' h'.split h'.has_form) (h'.leftmost u v w h.split h.has_form)
  have hsplit : u ++ (v ++ w) = u' ++ (v' ++ w') := by
    rw [← List.append_assoc, ← List.append_assoc, ← h.split, ← h'.split]
  obtain ⟨rfl, hrest⟩ := List.append_inj hsplit hfront
  have hlength : v.length = v'.length :=
    Nat.le_antisymm (h'.longest v w h.split h.has_form) (h.longest v' w' h'.split h'.has_form)
  exact ⟨rfl, List.append_inj hrest hlength⟩

/-! ## Lexemes around a mark -/

theorem lexemes_append_mark {c : Char} (hc : c.isDigit = false) (s t : Text) :
    lexemes (s ++ c :: t) = lexemes s ++ .mark c :: lexemes t := by
  have hcons : lexemes (c :: t) = .mark c :: lexemes t := by
    rw [lexemes_cons]
    exact if_neg (by simp [hc])
  rw [← hcons]
  apply lexemes_append
  rintro d e - he ⟨-, hdigit⟩
  obtain rfl : c = e := Option.some.inj he
  rw [hc] at hdigit
  cases hdigit

/-- A text that begins with a digit begins with a numeral. -/
theorem exists_lexemes_eq_numeral {ds : Text} (hne : ds ≠ []) (hds : ∀ c ∈ ds, c.isDigit) (t : Text) :
    ∃ ds' row, lexemes (ds ++ t) = numeral ds' :: row := by
  obtain ⟨c, ds, rfl⟩ := List.exists_cons_of_ne_nil hne
  have hnum : startsNumeral (lexemes (c :: ds ++ t)) = true := by
    rw [startsNumeral_lexemes, List.cons_append, List.head?_cons]
    exact hds c List.mem_cons_self
  rcases hrow : lexemes (c :: ds ++ t) with _ | ⟨_ | _, row⟩
  · rw [hrow] at hnum; cases hnum
  · exact ⟨_, row, rfl⟩
  · rw [hrow] at hnum; cases hnum

/-- Digits in front of a text go no further than another front behind which no digit stands. -/
theorem length_le_of_digits {ds s r t : Text} (hds : ∀ c ∈ ds, c.isDigit) (h : ds ++ s = r ++ t)
    (ht : ∀ c, t.head? = some c → c.isDigit = false) : ds.length ≤ r.length := by
  induction r generalizing ds with
  | nil =>
    rcases ds with _ | ⟨c, ds⟩
    · exact Nat.le_refl 0
    · have hdigit := hds c List.mem_cons_self
      rw [ht c (by rw [← List.nil_append t, ← h]; rfl)] at hdigit
      cases hdigit
  | cons d r ih =>
    rcases ds with _ | ⟨c, ds⟩
    · exact Nat.zero_le _
    · exact Nat.succ_le_succ (ih (fun e he => hds e (List.mem_cons_of_mem c he)) (List.cons.inj h).2)

/-- A text that begins with a part of the form begins with a redex. -/
theorem Rule.head?_lexemes_of_form {rule : Rule} {v : Text} (h : rule.Form v) (w : Text) :
    rule.head? (lexemes (v ++ w)) ≠ none := by
  obtain ⟨left, right, rfl, hleft, hright, hcount, hne⟩ := h
  obtain ⟨ds, row, hrow⟩ := exists_lexemes_eq_numeral hne hright w
  rw [List.append_assoc, List.cons_append, lexemes_append_mark rule.isDigit_mark, hrow]
  by_cases hnil : left = []
  · obtain rfl : rule = dice := hcount.resolve_right fun hne => hne hnil
    subst hnil
    simp [head?, Rule.mark]
  · rw [lexemes_digits hnil hleft]
    cases rule <;> simp [head?, Rule.mark]

/-! ## The leftmost part of the form -/

namespace Rule

/-- What a numeral is does not decide whether a rule takes it. -/
theorem head?_numeral_eq_none {rule : Rule} {ds : Text} {row : List Lexeme}
    (h : rule.head? (numeral ds :: row) = none) (ds' : Text) : rule.head? (numeral ds' :: row) = none := by
  cases hhead : rule.head? (numeral ds' :: row) with
  | none => rfl
  | some found =>
    obtain ⟨matched, after⟩ := found
    have hrow := row_eq_of_head? hhead
    cases redex_of_head? hhead with
    | die sides => cases hrow
    | dice count sides =>
      obtain ⟨-, rfl⟩ := List.cons.inj hrow
      simp [head?] at h
    | binary op left right =>
      obtain ⟨-, rfl⟩ := List.cons.inj hrow
      simp [head?] at h

/-- A rule finds a redex at the front of a row, or what it finds behind the first lexeme. -/
theorem find?_cons_of_find? {rule : Rule} (x : Lexeme) {row : List Lexeme} {m : Match}
    (h : rule.find? row = some m) :
    ∃ m', rule.find? (x :: row) = some m' ∧ (m'.before = [] ∨ m'.before = x :: m.before) := by
  cases hhead : rule.head? (x :: row) with
  | some found => exact ⟨_, find?_cons_of_head? hhead, Or.inl rfl⟩
  | none =>
    rw [find?_cons_of_none hhead, h]
    exact ⟨_, rfl, Or.inr rfl⟩

/-- **A character in front of a row stands in front of the occurrence**, or an occurrence begins with it. -/
theorem find?_push {rule : Rule} (c : Char) {row : List Lexeme} {m : Match} (h : rule.find? row = some m) :
    ∃ m', rule.find? (push c row) = some m' ∧ (m'.before = [] ∨ join m'.before = c :: join m.before) := by
  have hcons (x : Lexeme) (hx : x.text = [c]) :
      ∃ m', rule.find? (x :: row) = some m' ∧ (m'.before = [] ∨ join m'.before = c :: join m.before) := by
    obtain ⟨m', hm', hbefore⟩ := find?_cons_of_find? x h
    refine ⟨m', hm', hbefore.imp_right fun hbefore => ?_⟩
    rw [hbefore, join_cons, hx]
    rfl
  unfold push
  split
  · split
    · -- the digit lengthens the first numeral of the row
      rename_i ds rest
      cases hhead : rule.head? (numeral (c :: ds) :: rest) with
      | some found => exact ⟨_, find?_cons_of_head? hhead, Or.inl rfl⟩
      | none =>
        rw [find?_cons_of_none (head?_numeral_eq_none hhead ds)] at h
        obtain ⟨m', hm', rfl⟩ := Option.map_eq_some_iff.mp h
        rw [find?_cons_of_none hhead, hm']
        exact ⟨_, rfl, Or.inr rfl⟩
    · exact hcons _ rfl
  · exact hcons _ rfl

/-- **An occurrence begins no later than any part of the form.** -/
theorem exists_occurrence_le {rule : Rule} {v : Text} (hv : rule.Form v) (u w : Text) :
    ∃ m, rule.occurrence? (u ++ v ++ w) = some m ∧ (join m.before).length ≤ u.length := by
  induction u with
  | nil =>
    have hhead := head?_lexemes_of_form hv w
    rw [List.nil_append, occurrence?]
    rcases hrow : lexemes (v ++ w) with _ | ⟨x, row⟩
    · rw [hrow] at hhead
      exact absurd (head?_nil rule) hhead
    · rw [hrow] at hhead
      obtain ⟨found, hfound⟩ := Option.ne_none_iff_exists'.mp hhead
      exact ⟨_, find?_cons_of_head? hfound, Nat.le_refl 0⟩
  | cons c u ih =>
    obtain ⟨m, hm, hle⟩ := ih
    obtain ⟨m', hm', hbefore⟩ := find?_push c hm
    refine ⟨m', hm', ?_⟩
    rcases hbefore with hbefore | hbefore
    · rw [hbefore]
      exact Nat.zero_le _
    · rw [hbefore]
      exact Nat.succ_le_succ hle

/-! ## The longest part at its place -/

/-- The text of an occurrence has the form. -/
theorem form_of_occurrence? {rule : Rule} {t : Text} {m : Match} (h : rule.occurrence? t = some m) :
    rule.Form m.text := by
  rcases cases_of_occurrence? h with ⟨rfl, count, sides, hm⟩ | ⟨op, l, r, rfl, hm⟩
  · rw [Match.text, hm, join_diceRow]
    refine ⟨count.elim [] Digits.text, sides.text, by cases count <;> rfl, ?_, sides.isDigit, Or.inl rfl, sides.ne_nil⟩
    cases count with
    | none => simp
    | some count => exact count.isDigit
  · rw [Match.text, hm, join_operatorRow]
    exact ⟨l.text, r.text, rfl, l.isDigit, r.isDigit, Or.inr l.ne_nil, r.ne_nil⟩

/-- No digit stands behind an occurrence. -/
theorem not_isDigit_behind {rule : Rule} {t : Text} {m : Match} (h : rule.occurrence? t = some m) {c : Char}
    (hc : (join m.after).head? = some c) : c.isDigit = false := by
  have hrow := row_eq_of_find? h
  have hsep := separated_lexemes t
  have hproper : ∀ x ∈ m.after, x.Proper := by
    intro x hx
    apply proper_of_mem_lexemes (t := t)
    rw [hrow]
    simp [hx]
  obtain ⟨ds, hds⟩ := (redex_of_find? h).getLast?
  cases hdigit : c.isDigit with
  | false => rfl
  | true =>
    have hnum := startsNumeral_of_head? hproper hc hdigit
    rw [startsNumeral_eq, Option.any_eq_true] at hnum
    obtain ⟨y, hy, hinteger⟩ := hnum
    rw [Separated, hrow, List.isChain_append] at hsep
    have hlast : (m.before ++ m.matched).getLast? = some (numeral ds) := by
      rw [List.getLast?_append, hds]
      rfl
    exact absurd ⟨rfl, hinteger⟩ (hsep.2.2 _ hlast y hy)

/-- **At the place of an occurrence, no part of the form is longer.** -/
theorem length_le_of_occurrence? {rule : Rule} {t : Text} {m : Match} (h : rule.occurrence? t = some m) {v w : Text}
    (ht : t = join m.before ++ v ++ w) (hv : rule.Form v) : v.length ≤ m.text.length := by
  obtain ⟨left, right, hm, hleft, -, -, -⟩ := form_of_occurrence? h
  obtain ⟨left', right', rfl, hleft', hright', -, -⟩ := hv
  have hmark {ds : Text} (hds : ∀ c ∈ ds, c.isDigit) : rule.mark ∉ ds := by
    intro hmem
    have hdigit := hds _ hmem
    rw [rule.isDigit_mark] at hdigit
    cases hdigit
  have hsplit : left' ++ rule.mark :: (right' ++ w) = left ++ rule.mark :: (right ++ join m.after) := by
    have htext := text_eq_of_occurrence? h
    rw [ht, hm] at htext
    simpa using htext
  -- both are cut at the same mark, and the digits behind it end where the numeral of the occurrence does
  have hcut := congrArg (Text.cut? rule.mark) hsplit
  rw [Text.cut?_append (hmark hleft'), Text.cut?_append (hmark hleft)] at hcut
  obtain ⟨rfl, hrest⟩ := Prod.mk.inj (Option.some.inj hcut)
  have hle := length_le_of_digits hright' hrest fun c hc => not_isDigit_behind h hc
  rw [hm]
  simp only [List.length_append, List.length_cons]
  omega

end Rule

/-- **The occurrence of a rule is the leftmost match of its form, and the longest one there.** -/
theorem leftmostLongest_iff {rule : Rule} {t u v w : Text} : LeftmostLongest rule.Form t u v w ↔
    ∃ m, rule.occurrence? t = some m ∧ join m.before = u ∧ m.text = v ∧ join m.after = w := by
  have hoccurs {m : Match} (hm : rule.occurrence? t = some m) :
      LeftmostLongest rule.Form t (join m.before) m.text (join m.after) := by
    refine ⟨Rule.text_eq_of_occurrence? hm, Rule.form_of_occurrence? hm, fun u v w ht hv => ?_, fun v w ht hv => ?_⟩
    · obtain ⟨m', hm', hle⟩ := Rule.exists_occurrence_le hv u w
      rw [← ht, hm] at hm'
      obtain rfl := Option.some.inj hm'
      exact hle
    · exact Rule.length_le_of_occurrence? hm ht hv
  constructor
  · intro h
    obtain ⟨m, hm, -⟩ := Rule.exists_occurrence_le h.has_form u w
    rw [← h.split] at hm
    exact ⟨m, hm, (hoccurs hm).unique h⟩
  · rintro ⟨m, hm, rfl, rfl, rfl⟩
    exact hoccurs hm

/-! ## The search among tokens -/

/-- The place of a rule among the tokens of a string, and what is cut out of the string there. -/
def Rule.locateIn? (rule : Rule) (s : String) : Option (Span × Option String) :=
  (rule.locate? (tokens s.toList)).map fun span => (span, span.slice? s)

/-- It is that of the occurrence, which can always be cut out. -/
theorem Rule.locateIn?_eq (rule : Rule) (s : String) :
    rule.locateIn? s = (rule.occurrence? s.toList).map fun m => (m.span, some (String.ofList m.text)) := by
  rw [locateIn?, locate?_tokens, Option.map_map]
  cases hm : rule.occurrence? s.toList with
  | none => rfl
  | some m =>
    have hslice := slice?_of_occurrence? hm
    rw [String.ofList_toList] at hslice
    simp [hslice]

/-- **The search among the tokens of a string finds the leftmost match, and the longest one there**, with its byte span
and its text, and it finds nothing only where no part of the string has the form. -/
theorem locateIn?_leftmost_longest (rule : Rule) (s : String) :
    (∀ found, rule.locateIn? s = some found ↔ ∃ before matched after,
      LeftmostLongest rule.Form s.toList before matched after ∧
        found = (⟨before.byteSize, before.byteSize + matched.byteSize⟩, some (String.ofList matched))) ∧
    (rule.locateIn? s = none ↔ ∀ before part after, s.toList = before ++ part ++ after → ¬ rule.Form part) ∧
    ∀ before matched after, LeftmostLongest rule.Form s.toList before matched after ↔
      ∃ m, rule.occurrence? s.toList = some m ∧ join m.before = before ∧ m.text = matched ∧ join m.after = after := by
  rw [Rule.locateIn?_eq]
  refine ⟨fun found => ?_, ?_, fun _ _ _ => leftmostLongest_iff⟩
  · constructor
    · intro hfound
      obtain ⟨m, hm, rfl⟩ := Option.map_eq_some_iff.mp hfound
      exact ⟨_, _, _, leftmostLongest_iff.mpr ⟨m, hm, rfl, rfl, rfl⟩, rfl⟩
    · rintro ⟨before, matched, after, hmatch, rfl⟩
      obtain ⟨m, hm, rfl, rfl, rfl⟩ := leftmostLongest_iff.mp hmatch
      rw [hm]
      rfl
  · rw [Option.map_eq_none_iff]
    constructor
    · intro hnone before part after hsplit hpart
      obtain ⟨m, hm, -⟩ := Rule.exists_occurrence_le hpart before after
      rw [← hsplit, hnone] at hm
      cases hm
    · intro hno
      cases hm : rule.occurrence? s.toList with
      | none => rfl
      | some m => exact absurd (Rule.form_of_occurrence? hm) (hno _ _ _ (Rule.text_eq_of_occurrence? hm))

-- the count of the second dice is no part of the first ones, and a `d` in front of them is passed over
example : Rule.dice.locateIn? (String.ofList ['é', '3', 'd', 'd', '6', '0', 'd', '5']) =
    some (⟨4, 7⟩, some (String.ofList ['d', '6', '0'])) := by decide +kernel

end TabletopDice
