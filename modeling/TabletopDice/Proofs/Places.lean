import TabletopDice.Proofs.Bytes
import TabletopDice.Proofs.Nesting
import TabletopDice.Proofs.Occurrence

/-!
# Places found by tokens

Occurrences of rules and groups are found here as a scanner finds them: by the kinds of the tokens of a text, which give
byte offsets and no text.

- `Rule.locate?` looks for the tokens of a rule, and `locateGroup?` for a `)` behind the last `(`. What they find are
  the spans of the leftmost occurrence and of the leftmost group (`locate?_tokens`, `locateGroup?_tokens`);
- these spans, and the span of the inside of a group, are usable (`usable_of_locate?`, `usable_of_locateGroup?`): the
  text can be cut there, which gives the occurrence, the group or its inside, and written to, which gives what
  `Match.replace` and `Group.replace` give (`splice?_of_occurrence?`, `splice?_of_find?`).
-/

namespace TabletopDice

/-! ## The searches -/

/-- The kind of the token that writes an operator. -/
def Operator.kind : Operator → Kind
  | multiply => .star
  | divide => .slash
  | add => .plus
  | subtract => .minus

/-- The span of the first `d` in front of an integer, together with both integers if it stands behind another one. The
token in front of the list is known. -/
def locateDice? (previous : Option Token) : List Token → Option Span
  | die :: sides :: rest =>
    if die.kind = .die ∧ sides.kind = .integer then
      match previous with
      | some count =>
        some ⟨if count.kind = .integer then count.span.start else die.span.start, sides.span.stop⟩
      | none => some ⟨die.span.start, sides.span.stop⟩
    else locateDice? (some die) (sides :: rest)
  | _ => none

/-- The span of the first token of a kind between two integers, together with both. -/
def locateBetween? (kind : Kind) : List Token → Option Span
  | left :: mark :: right :: rest =>
    if left.kind = .integer ∧ mark.kind = kind ∧ right.kind = .integer then some ⟨left.span.start, right.span.stop⟩
    else locateBetween? kind (mark :: right :: rest)
  | _ => none

/-- The span of the first occurrence of a rule among tokens. -/
def Rule.locate? : Rule → List Token → Option Span
  | dice, tokens => locateDice? none tokens
  | binary op, tokens => locateBetween? op.kind tokens

/-- The span from the last `(` up to the first `)` behind one. A `(` in front of the tokens may be open. -/
def locateGroup? (opened : Option Nat) : List Token → Option Span
  | [] => none
  | token :: rest =>
    match token.kind with
    | .leftParen => locateGroup? (some token.span.start) rest
    | .rightParen =>
      match opened with
      | some start => some ⟨start, token.span.stop⟩
      | none => locateGroup? none rest
    | _ => locateGroup? opened rest

/-- The span of a group with its parentheses. -/
def Group.span (g : Group) : Span := ⟨g.start, g.stop⟩

/-- The span of what stands inside of a group: that of the group without its first and its last byte. -/
def Span.inside (span : Span) : Span := ⟨span.start + 1, span.stop - 1⟩

/-! ## Kinds -/

/-- The only character of a kind. -/
def Kind.char? : Kind → Option Char
  | die => some 'd'
  | leftParen => some '('
  | rightParen => some ')'
  | plus => some '+'
  | minus => some '-'
  | star => some '*'
  | slash => some '/'
  | integer => none
  | unknown => none

theorem Kind.ofChar_eq_iff {c : Char} {k : Kind} (hk : k ≠ .unknown) : Kind.ofChar c = k ↔ k.char? = some c := by
  constructor
  · rintro rfl
    unfold Kind.ofChar at hk ⊢
    split_ifs at hk ⊢ <;> simp_all [Kind.char?]
  · intro h
    cases k <;> first | cases h; done | (obtain rfl := Option.some.inj h; rfl)

theorem Lexeme.kind_eq_integer_iff {x : Lexeme} : x.kind = .integer ↔ ∃ ds, x = .numeral ds := by
  cases x with
  | numeral ds => simp [Lexeme.kind]
  | mark c => simp [Lexeme.kind, Kind.ofChar_eq_iff, Kind.char?]

/-- The kind of a mark has its character. -/
theorem Lexeme.kind_eq_iff {x : Lexeme} {k : Kind} {c : Char} (hk : k.char? = some c) :
    x.kind = k ↔ x = .mark c := by
  cases x with
  | numeral ds => cases k <;> first | cases hk; done | simp [Lexeme.kind]
  | mark d =>
    have hne : k ≠ .unknown := by rintro rfl; cases hk
    simp [Lexeme.kind, Kind.ofChar_eq_iff hne, hk, eq_comm]

theorem Operator.char?_kind (op : Operator) : op.kind.char? = some op.mark := by
  cases op <;> rfl

/-! ## Occurrences of rules -/

/-- The span of an occurrence in a row that begins at an offset. -/
def Match.spanFrom (start : Nat) (m : Match) : Span :=
  ⟨start + (join m.before).byteSize, start + (join m.before).byteSize + m.text.byteSize⟩

theorem Match.spanFrom_zero (m : Match) : m.spanFrom 0 = m.span := by
  simp [spanFrom, span]

/-- A lexeme in front of an occurrence moves its span. -/
theorem Match.map_spanFrom_cons (start : Nat) (x : Lexeme) (found : Option Match) :
    (found.map fun m => { m with before := x :: m.before }).map (Match.spanFrom start) =
      found.map (Match.spanFrom (start + x.text.byteSize)) := by
  cases found with
  | none => rfl
  | some m => simp [spanFrom, Match.text, Nat.add_assoc]

/-- A redex at the front of a row is the leftmost one. -/
theorem Rule.find?_redex {rule : Rule} {matched : List Lexeme} (h : Redex rule matched) (after : List Lexeme) :
    rule.find? (matched ++ after) = some ⟨[], matched, after⟩ :=
  find?_eq_some_iff.mpr ⟨rfl, h, fun _ _ hnil hv => absurd (List.append_eq_nil_iff.mp hnil.symm).2 hv⟩

/-- Dice are found by their tokens, with the token in front known. -/
theorem locateDice?_some_tokensFrom (x : Lexeme) (start : Nat) (row : List Lexeme)
    (hx : x = .mark 'd' → ∀ ds, row.head? ≠ some (.numeral ds)) :
    locateDice? (some ⟨x.kind, start, start + x.text.byteSize⟩) (tokensFrom (start + x.text.byteSize) row) =
      (Rule.dice.find? (x :: row)).map (Match.spanFrom start) := by
  induction row generalizing x start with
  | nil => cases x <;> rfl
  | cons y row ih =>
    have hnone (hy : y = .mark 'd' → ∀ ds, row.head? ≠ some (.numeral ds)) :
        Rule.dice.head? (x :: y :: row) = none := by
      cases hhead : Rule.dice.head? (x :: y :: row) with
      | none => rfl
      | some parts =>
        obtain ⟨matched, after⟩ := parts
        have hrow := Rule.row_eq_of_head? hhead
        cases Rule.redex_of_head? hhead with
        | die sides =>
          obtain ⟨rfl, rfl, -⟩ : x = .mark 'd' ∧ y = .numeral sides ∧ row = after := by simpa using hrow
          exact absurd rfl (hx rfl sides)
        | dice count sides =>
          obtain ⟨-, rfl, rfl⟩ : x = .numeral count ∧ y = .mark 'd' ∧ row = .numeral sides :: after := by
            simpa using hrow
          exact absurd rfl (hy rfl sides)
    rcases row with _ | ⟨z, row⟩
    · rw [Rule.find?_cons_of_none (hnone (by simp))]
      cases x <;> cases y <;> rfl
    · rw [tokensFrom, tokensFrom, locateDice?]
      have hdie : Kind.die.char? = some 'd' := rfl
      split <;> rename_i h <;> simp only [Lexeme.kind_eq_integer_iff, Lexeme.kind_eq_iff hdie] at h
      · obtain ⟨rfl, sides, rfl⟩ := h
        cases x with
        | numeral count =>
          have hfind := Rule.find?_redex (.dice count sides) row
          simp only [List.cons_append, List.nil_append] at hfind
          simp [hfind, Match.spanFrom, Match.text, Lexeme.kind, Nat.add_assoc]
        | mark c =>
          have hc : (Lexeme.mark c).kind ≠ .integer := by simp [Lexeme.kind_eq_integer_iff]
          have hfind := Rule.find?_redex (.die sides) row
          simp only [List.cons_append, List.nil_append] at hfind
          rw [Rule.find?_cons_of_none (by simp [Rule.head?]), Match.map_spanFrom_cons, hfind]
          simp [Match.spanFrom, Match.text, hc, Nat.add_assoc]
      · have hy : y = .mark 'd' → ∀ ds, (z :: row).head? ≠ some (.numeral ds) :=
          fun hy ds hz => h ⟨hy, ds, Option.some.inj hz⟩
        rw [Rule.find?_cons_of_none (hnone hy), Match.map_spanFrom_cons]
        exact ih y _ hy

theorem locateDice?_tokensFrom (start : Nat) (row : List Lexeme) :
    locateDice? none (tokensFrom start row) = (Rule.dice.find? row).map (Match.spanFrom start) := by
  rcases row with _ | ⟨x, _ | ⟨y, row⟩⟩
  · rfl
  · cases x <;> rfl
  · have hdie : Kind.die.char? = some 'd' := rfl
    rw [tokensFrom, tokensFrom, locateDice?]
    split <;> rename_i h <;> simp only [Lexeme.kind_eq_integer_iff, Lexeme.kind_eq_iff hdie] at h
    · obtain ⟨rfl, sides, rfl⟩ := h
      have hfind := Rule.find?_redex (.die sides) row
      simp only [List.cons_append, List.nil_append] at hfind
      simp [hfind, Match.spanFrom, Match.text, Nat.add_assoc]
    · exact locateDice?_some_tokensFrom x start (y :: row) fun hx ds hy => h ⟨hx, ds, Option.some.inj hy⟩

/-- An operator takes nothing from a row that does not begin with its character between two numerals. -/
theorem Rule.head?_binary_eq_none {op : Operator} {x y z : Lexeme} {row : List Lexeme}
    (h : ¬ ((∃ ds, x = .numeral ds) ∧ y = .mark op.mark ∧ ∃ ds, z = .numeral ds)) :
    (binary op).head? (x :: y :: z :: row) = none := by
  cases hhead : (binary op).head? (x :: y :: z :: row) with
  | none => rfl
  | some parts =>
    obtain ⟨matched, after⟩ := parts
    have hrow := row_eq_of_head? hhead
    cases redex_of_head? hhead with
    | binary _ left right =>
      obtain ⟨rfl, rfl, rfl, -⟩ : x = .numeral left ∧ y = .mark op.mark ∧ z = .numeral right ∧ row = after := by
        simpa using hrow
      exact absurd ⟨⟨left, rfl⟩, rfl, ⟨right, rfl⟩⟩ h

/-- The tokens of a row have an operator between two integers where the row has one between two numerals. -/
theorem locateBetween?_tokensFrom (op : Operator) (start : Nat) (row : List Lexeme) :
    locateBetween? op.kind (tokensFrom start row) = ((Rule.binary op).find? row).map (Match.spanFrom start) := by
  induction row generalizing start with
  | nil => rfl
  | cons x row ih =>
    have hrest := ih (start + x.text.byteSize)
    rcases row with _ | ⟨y, _ | ⟨z, row⟩⟩
    · cases x <;> rfl
    · cases x <;> cases y <;> rfl
    · rw [tokensFrom, tokensFrom, tokensFrom, locateBetween?]
      rw [tokensFrom, tokensFrom] at hrest
      split <;> rename_i h <;> simp only [Lexeme.kind_eq_integer_iff, Lexeme.kind_eq_iff op.char?_kind] at h
      · obtain ⟨⟨left, rfl⟩, rfl, ⟨right, rfl⟩⟩ := h
        have hfind := Rule.find?_redex (.binary op left right) row
        simp only [List.cons_append, List.nil_append] at hfind
        simp [hfind, Match.spanFrom, Match.text, Nat.add_assoc]
      · rw [hrest, Rule.find?_cons_of_none (Rule.head?_binary_eq_none h), Match.map_spanFrom_cons]

/-- **The tokens of a text give the place of the leftmost occurrence of a rule.** -/
theorem Rule.locate?_tokens (rule : Rule) (t : Text) :
    rule.locate? (tokens t) = (rule.occurrence? t).map Match.span := by
  have hspan : Match.spanFrom 0 = Match.span := funext Match.spanFrom_zero
  rw [occurrence?, ← hspan]
  cases rule with
  | dice => exact locateDice?_tokensFrom 0 _
  | binary op => exact locateBetween?_tokensFrom op 0 _

/-! ## Groups -/

/-- What the search for a group has behind it: no `(`, or a last `(` with no group in front of it and no parentheses
behind it. -/
inductive Opened : Text → Option Nat → Prop
  | none {t : Text} (h : '(' ∉ t) : Opened t none
  | some {before inside : Text} (hbefore : Loose before) (hinside : ∀ c ∈ inside, Group.isParen c = false) :
    Opened (before ++ '(' :: inside) (some before.byteSize)

/-- The search comes to a text with no group. -/
theorem Opened.loose {t : Text} {opened : Option Nat} (h : Opened t opened) : Loose t := by
  cases h with
  | none h => exact loose_of_not_mem_left h
  | @some before inside hbefore hinside =>
    have hno {c : Char} (hc : Group.isParen c) : c ∉ inside := fun hm => by rw [hinside c hm] at hc; cases hc
    have hopen : Loose ('(' :: inside) := loose_cons.mpr ⟨fun _ => hno rfl, loose_of_not_mem_left (hno rfl)⟩
    exact loose_append.mpr ⟨hbefore, hopen, fun _ => by simpa using hno rfl⟩

/-- A text without parentheses changes nothing. -/
theorem Opened.append {t : Text} {opened : Option Nat} (h : Opened t opened) {s : Text}
    (hs : ∀ c ∈ s, Group.isParen c = false) : Opened (t ++ s) opened := by
  cases h with
  | none h =>
    refine .none fun hm => (List.mem_append.mp hm).elim h fun hm => ?_
    have := hs _ hm
    cases this
  | some hbefore hinside =>
    rw [List.append_assoc, List.cons_append]
    exact .some hbefore fun c hc => (List.mem_append.mp hc).elim (hinside c) (hs c)

theorem locateGroup?_cons_of_ne {token : Token} (hl : token.kind ≠ .leftParen) (hr : token.kind ≠ .rightParen)
    (opened : Option Nat) (rest : List Token) : locateGroup? opened (token :: rest) = locateGroup? opened rest := by
  simp only [locateGroup?]

/-- The characters of a proper lexeme are parentheses only if its kind is one. -/
theorem Lexeme.not_isParen_of_kind {x : Lexeme} (hx : x.Proper) (hl : x.kind ≠ .leftParen)
    (hr : x.kind ≠ .rightParen) : ∀ c ∈ x.text, Group.isParen c = false := by
  cases x with
  | numeral ds => exact fun c hc => Group.isParen_of_isDigit (hx.2 c hc)
  | mark c =>
    rw [ne_eq, Lexeme.kind_eq_iff (c := '(') rfl, Lexeme.mark.injEq] at hl
    rw [ne_eq, Lexeme.kind_eq_iff (c := ')') rfl, Lexeme.mark.injEq] at hr
    simp [Lexeme.text, Group.isParen, hl, hr]

/-- The tokens behind a text have a group where the whole text has one. -/
theorem locateGroup?_tokensFrom {front : Text} {opened : Option Nat} (h : Opened front opened) {row : List Lexeme}
    (hrow : ∀ x ∈ row, x.Proper) :
    locateGroup? opened (tokensFrom front.byteSize row) = (Group.find? (front ++ join row)).map Group.span := by
  induction row generalizing front opened with
  | nil =>
    rw [join_nil, List.append_nil, Group.find?_eq_none_iff.mpr h.loose]
    rfl
  | cons x row ih =>
    have hx := hrow x List.mem_cons_self
    have hnext {opened' : Option Nat} (h' : Opened (front ++ x.text) opened') :
        locateGroup? opened' (tokensFrom (front.byteSize + x.text.byteSize) row) =
          (Group.find? (front ++ join (x :: row))).map Group.span := by
      have hih := ih h' fun y hy => hrow y (List.mem_cons_of_mem _ hy)
      rwa [Text.byteSize_append, List.append_assoc, ← join_cons] at hih
    rw [tokensFrom]
    by_cases hl : x.kind = .leftParen
    · obtain rfl := (Lexeme.kind_eq_iff (c := '(') rfl).mp hl
      exact hnext (.some h.loose (by simp))
    by_cases hr : x.kind = .rightParen
    · obtain rfl := (Lexeme.kind_eq_iff (c := ')') rfl).mp hr
      cases h with
      | none h => exact hnext (.none (by simpa [Lexeme.text] using h))
      | @some before inside hbefore hinside =>
        have hfind := Group.find?_of_loose hbefore hinside (join row)
        have htext : before ++ '(' :: inside ++ join (.mark ')' :: row) =
            before ++ '(' :: (inside ++ ')' :: join row) := by simp [Lexeme.text]
        rw [htext, hfind, locateGroup?, hr]
        simp [Group.span, Group.start, Group.stop, Group.text, Lexeme.text, Nat.add_assoc, Nat.add_left_comm]
    · rw [locateGroup?_cons_of_ne hl hr]
      exact hnext (h.append (Lexeme.not_isParen_of_kind hx hl hr))

/-- **The tokens of a text give the place of its leftmost group.** -/
theorem locateGroup?_tokens (t : Text) : locateGroup? none (tokens t) = (Group.find? t).map Group.span := by
  have hopened : Opened [] none := .none (by simp)
  have h := locateGroup?_tokensFrom hopened (proper_of_mem_lexemes (t := t))
  rwa [List.nil_append, join_lexemes] at h

/-! ## Cutting and writing at these places -/

theorem slice?_of_occurrence? {rule : Rule} {t : Text} {m : Match} (h : rule.occurrence? t = some m) :
    m.span.slice? (String.ofList t) = some (String.ofList m.text) := by
  rw [Rule.text_eq_of_occurrence? h]
  exact Span.slice?_behind _ _ _

/-- What is written at the span of an occurrence replaces it. -/
theorem splice?_of_occurrence? {rule : Rule} {t : Text} {m : Match} (h : rule.occurrence? t = some m) (value : Int) :
    m.span.splice? (String.ofList t) (String.ofList (Numeral.writeInt value)) =
      some (String.ofList (m.replace value)) := by
  rw [Rule.text_eq_of_occurrence? h]
  exact Span.splice?_behind _ _ _ _

theorem Group.span_inside (g : Group) : g.span.inside = Span.behind (g.before ++ ['(']) g.inside := by
  have hstop : g.before.byteSize + g.text.byteSize - 1 = g.before.byteSize + 1 + g.inside.byteSize := by
    have hopen : ('(' : Char).utf8Size = 1 := rfl
    have hclose : (')' : Char).utf8Size = 1 := rfl
    simp only [Group.text, Text.byteSize_cons, Text.byteSize_append, Text.byteSize_nil, hopen, hclose]
    omega
  rw [Span.behind, Text.byteSize_append]
  exact congrArg _ hstop

/-- A text around the inside of a group. -/
theorem Group.text_eq_around_inside {t : Text} {g : Group} (h : Group.find? t = some g) :
    t = (g.before ++ ['(']) ++ g.inside ++ (')' :: g.after) := by
  rw [Group.eq_of_find? h]
  simp [Group.text]

theorem slice?_of_find? {t : Text} {g : Group} (h : Group.find? t = some g) :
    g.span.slice? (String.ofList t) = some (String.ofList g.text) := by
  rw [Group.eq_of_find? h]
  exact Span.slice?_behind _ _ _

theorem slice?_inside_of_find? {t : Text} {g : Group} (h : Group.find? t = some g) :
    g.span.inside.slice? (String.ofList t) = some (String.ofList g.inside) := by
  rw [Group.span_inside, Group.text_eq_around_inside h]
  exact Span.slice?_behind _ _ _

/-- What is written at the span of a group replaces it. -/
theorem splice?_of_find? {t : Text} {g : Group} (h : Group.find? t = some g) (value : UInt64) :
    g.span.splice? (String.ofList t) (String.ofList (Numeral.writeInt value.toNat)) =
      some (String.ofList (g.replace value)) := by
  rw [Group.eq_of_find? h]
  exact Span.splice?_behind _ _ _ _

/-- **The place of an occurrence is usable**, whatever characters stand around it. -/
theorem usable_of_locate? {rule : Rule} {s : String} {span : Span} (h : rule.locate? (tokens s.toList) = some span) :
    span.Usable s := by
  rw [Rule.locate?_tokens] at h
  obtain ⟨m, hm, rfl⟩ := Option.map_eq_some_iff.mp h
  rw [← String.ofList_toList (s := s), Rule.text_eq_of_occurrence? hm]
  exact Span.usable_behind _ _ _

/-- **The place of a group is usable**, and so is that of its inside. -/
theorem usable_of_locateGroup? {s : String} {span : Span} (h : locateGroup? none (tokens s.toList) = some span) :
    span.Usable s ∧ span.inside.Usable s := by
  rw [locateGroup?_tokens] at h
  obtain ⟨g, hg, rfl⟩ := Option.map_eq_some_iff.mp h
  rw [← String.ofList_toList (s := s)]
  constructor
  · rw [Group.eq_of_find? hg]
    exact Span.usable_behind _ _ _
  · rw [Group.span_inside, Group.text_eq_around_inside hg]
    exact Span.usable_behind _ _ _

end TabletopDice
