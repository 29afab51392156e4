import TabletopDice.Proofs.LeftmostMatch

/-!
# The tokens of a text tile it

- A scanner takes the longest match of its patterns at each place, and a single character where none of them matches
  (`Scanned`). What it gives are the tokens of the text (`scanned_iff`);
- their spans are a tiling of the text, without gaps and overlaps (`tiles_tokensFrom`);
- the tokens are where the lexemes of the text are (`mem_tokens_iff`). So the integers are the runs of digits that do not go
  on to either side (`integer_mem_tokens_iff`), and any other character is a token by itself (`mark_mem_tokens_iff`);
- the tokens of two texts in a row are those of both, unless the border is between two digits (`tokens_append_iff`).

The main statement is `tokens_tile`.
-/

namespace TabletopDice

open Lexeme

/-! ## Kinds of characters -/

/-- A character that is the only one of a kind is not a digit. -/
theorem Kind.isDigit_of_char? {k : Kind} {c : Char} (h : k.char? = some c) : c.isDigit = false := by
  cases k <;> cases h <;> rfl

/-- The kind of a character is the one that it is the only character of, if there is one. -/
theorem Kind.ofChar_eq_iff_or {c : Char} {k : Kind} :
    Kind.ofChar c = k ↔ k.char? = some c ∨ k = .unknown ∧ ∀ k' : Kind, k'.char? ≠ some c := by
  have hknown {k' : Kind} (h : k'.char? = some c) : Kind.ofChar c = k' := by
    refine (Kind.ofChar_eq_iff ?_).mpr h
    rintro rfl
    cases h
  constructor
  · intro h
    by_cases hk : k = .unknown
    · refine Or.inr ⟨hk, fun k' hk' => ?_⟩
      rw [hknown hk'] at h
      rw [h, hk] at hk'
      cases hk'
    · exact Or.inl ((Kind.ofChar_eq_iff hk).mp h)
  · rintro (h | ⟨rfl, hnone⟩)
    · exact hknown h
    · refine Decidable.byContradiction fun hk => ?_
      exact hnone _ ((Kind.ofChar_eq_iff hk).mp rfl)

theorem Lexeme.isInteger_iff {x : Lexeme} : x.isInteger ↔ x.kind = .integer := by
  rw [kind_eq_integer_iff]
  cases x <;> simp [isInteger]

/-! ## Scanning by the longest match -/

/-- The pattern of a kind: a row of digits, or the only character of the kind. -/
def Kind.Accepts (k : Kind) (part : Text) : Prop :=
  (k = .integer ∧ part ≠ [] ∧ ∀ c ∈ part, c.isDigit) ∨ ∃ c, k.char? = some c ∧ part = [c]

/-- The tokens that a scanner gives for a text from an offset on. At each place it takes the longest part that has a
pattern. A character where no part has one is unknown. -/
inductive Scanned : Nat → Text → List Token → Prop
  | done (start : Nat) : Scanned start [] []
  | token {start : Nat} {kind : Kind} {part rest : Text} {tokens : List Token} (haccepts : kind.Accepts part)
      (hlongest : ∀ (kind' : Kind) (part' rest' : Text), part ++ rest = part' ++ rest' → kind'.Accepts part' →
        part'.length ≤ part.length)
      (hrest : Scanned (start + part.byteSize) rest tokens) :
      Scanned start (part ++ rest) (⟨kind, start, start + part.byteSize⟩ :: tokens)
  | unknown {start : Nat} {c : Char} {rest : Text} {tokens : List Token}
      (hnone : ∀ (kind : Kind) (part rest' : Text), c :: rest = part ++ rest' → ¬ kind.Accepts part)
      (hrest : Scanned (start + c.utf8Size) rest tokens) :
      Scanned start (c :: rest) (⟨.unknown, start, start + c.utf8Size⟩ :: tokens)

/-- In front of a text that does not begin with a digit, a pattern has the first character alone. -/
theorem Kind.Accepts.eq_singleton {k : Kind} {part : Text} (h : k.Accepts part) {c : Char} {rest rest' : Text}
    (hc : c.isDigit = false) (hsplit : c :: rest = part ++ rest') : part = [c] ∧ k.char? = some c := by
  rcases h with ⟨-, hne, hdigits⟩ | ⟨d, hd, rfl⟩
  · obtain ⟨d, ds, rfl⟩ := List.exists_cons_of_ne_nil hne
    obtain ⟨rfl, -⟩ := List.cons.inj hsplit
    rw [hdigits c List.mem_cons_self] at hc
    cases hc
  · obtain ⟨rfl, -⟩ := List.cons.inj hsplit
    exact ⟨rfl, hd⟩

theorem lexemes_cons_mark {c : Char} (hc : c.isDigit = false) (t : Text) : lexemes (c :: t) = mark c :: lexemes t :=
  lexemes_append_mark hc [] t

/-- What a scanner gives are the tokens. -/
theorem Scanned.eq_tokensFrom {start : Nat} {t : Text} {found : List Token} (h : Scanned start t found) :
    found = tokensFrom start (lexemes t) := by
  induction h with
  | done start => rfl
  | @token start kind part rest tokens haccepts hlongest hrest ih =>
    rcases haccepts with ⟨rfl, hne, hdigits⟩ | ⟨c, hc, rfl⟩
    · -- a digit behind the digits would make the match longer
      have hborder : ∀ c d, part.getLast? = some c → rest.head? = some d → ¬ (c.isDigit ∧ d.isDigit) := by
        rintro c d - hd ⟨-, hdigit⟩
        obtain ⟨rest', rfl⟩ := List.head?_eq_some_iff.mp hd
        have hmore : ∀ e ∈ part ++ [d], e.isDigit := by simpa [or_imp, forall_and, hdigit] using hdigits
        have hle := hlongest .integer (part ++ [d]) rest' (by simp) (Or.inl ⟨rfl, by simp, hmore⟩)
        rw [List.length_append] at hle
        exact absurd hle (Nat.not_succ_le_self _)
      rw [lexemes_append hborder, lexemes_digits hne hdigits, List.singleton_append, tokensFrom, ih]
      rfl
    · have hkind : (mark c).kind = kind := Kind.ofChar_eq_iff_or.mpr (Or.inl hc)
      rw [List.singleton_append, lexemes_cons_mark (Kind.isDigit_of_char? hc), tokensFrom, hkind, ih]
      rfl
  | @unknown start c rest tokens hnone hrest ih =>
    have hdigit : c.isDigit = false := by
      refine Bool.eq_false_iff.mpr fun hdigit => hnone .integer [c] rest rfl (Or.inl ⟨rfl, by simp, ?_⟩)
      simpa using hdigit
    have hkind : (mark c).kind = .unknown :=
      Kind.ofChar_eq_iff_or.mpr (Or.inr ⟨rfl, fun k hk => hnone k [c] rest rfl (Or.inr ⟨c, hk, rfl⟩)⟩)
    rw [lexemes_cons_mark hdigit, tokensFrom, hkind, ih]
    rfl

/-- No digit stands behind a numeral. -/
theorem not_isDigit_of_separated {ds : Text} {row : List Lexeme} (hproper : ∀ x ∈ row, x.Proper)
    (hsep : Separated (numeral ds :: row)) {c : Char} (hc : (join row).head? = some c) : c.isDigit = false := by
  refine Bool.eq_false_iff.mpr fun hdigit => ?_
  have hnum := startsNumeral_of_head? hproper hc hdigit
  rw [startsNumeral_eq, Option.any_eq_true] at hnum
  obtain ⟨y, hy, hinteger⟩ := hnum
  exact (List.isChain_cons.mp hsep).1 y hy ⟨rfl, hinteger⟩

/-- A scanner gives the tokens of a separated row. -/
theorem scanned_tokensFrom {row : List Lexeme} (hproper : ∀ x ∈ row, x.Proper) (hsep : Separated row) (start : Nat) :
    Scanned start (join row) (tokensFrom start row) := by
  induction row generalizing start with
  | nil => exact .done start
  | cons x row ih =>
    have hx := hproper x List.mem_cons_self
    have hrest : ∀ y ∈ row, y.Proper := fun y hy => hproper y (List.mem_cons_of_mem _ hy)
    have hscan := ih hrest (List.isChain_cons.mp hsep).2 (start + x.text.byteSize)
    rw [join_cons, tokensFrom]
    cases x with
    | numeral ds =>
      refine .token (Or.inl ⟨rfl, hx⟩) (fun k part rest hsplit haccepts => ?_) hscan
      rcases haccepts with ⟨-, -, hdigits⟩ | ⟨c, -, rfl⟩
      · exact length_le_of_digits hdigits hsplit.symm fun c => not_isDigit_of_separated hrest hsep
      · exact List.length_pos_iff.mpr hx.1
    | mark c =>
      have hc : c.isDigit = false := Bool.eq_false_iff.mpr hx
      rcases Kind.ofChar_eq_iff_or.mp (rfl : (mark c).kind = (mark c).kind) with hk | ⟨hk, hnone⟩
      · refine .token (Or.inr ⟨c, hk, rfl⟩) (fun k part rest hsplit haccepts => ?_) hscan
        rw [(haccepts.eq_singleton hc hsplit).1]
        exact Nat.le_refl 1
      · rw [hk]
        exact .unknown (fun k part rest hsplit haccepts => hnone k (haccepts.eq_singleton hc hsplit).2) hscan

/-- **What a scanner gives are the tokens of the text, and it always gives them.** -/
theorem scanned_iff {t : Text} {found : List Token} : Scanned 0 t found ↔ found = tokens t := by
  constructor
  · exact Scanned.eq_tokensFrom
  · rintro rfl
    have h := scanned_tokensFrom (proper_of_mem_lexemes (t := t)) (separated_lexemes t) 0
    rwa [join_lexemes] at h

/-! ## Spans in a row -/

/-- The spans are not empty. The first one begins at `start`, each of the others where the one in front of it ends, and
the last one ends at `stop`. -/
def Tiles (start : Nat) : List Span → Nat → Prop
  | [], stop => start = stop
  | span :: rest, stop => span.start = start ∧ start < span.stop ∧ Tiles span.stop rest stop

theorem Lexeme.byteSize_text_pos {x : Lexeme} (hx : x.Proper) : 0 < x.text.byteSize := by
  have hne : x.text ≠ [] := by
    cases x with
    | numeral ds => exact hx.1
    | mark c => exact List.cons_ne_nil c []
  obtain ⟨c, ds, htext⟩ := List.exists_cons_of_ne_nil hne
  have hc := c.utf8Size_pos
  rw [htext, Text.byteSize_cons]
  omega

/-- **The spans of the tokens of a row tile its text.** -/
theorem tiles_tokensFrom {row : List Lexeme} (hproper : ∀ x ∈ row, x.Proper) (start : Nat) :
    Tiles start ((tokensFrom start row).map Token.span) (start + (join row).byteSize) := by
  induction row generalizing start with
  | nil => exact (Nat.add_zero start).symm
  | cons x row ih =>
    have hrest := ih (fun y hy => hproper y (List.mem_cons_of_mem _ hy)) (start + x.text.byteSize)
    rw [Nat.add_assoc, ← Text.byteSize_append, ← join_cons] at hrest
    exact ⟨rfl, Nat.lt_add_of_pos_right (byteSize_text_pos (hproper x List.mem_cons_self)), hrest⟩

/-! ## The places of tokens -/

theorem mem_tokensFrom_iff {token : Token} {start : Nat} {row : List Lexeme} : token ∈ tokensFrom start row ↔
    ∃ front x back, row = front ++ x :: back ∧ token = ⟨x.kind, start + (join front).byteSize,
      start + (join front).byteSize + x.text.byteSize⟩ := by
  induction row generalizing start with
  | nil => simp [tokensFrom]
  | cons y row ih =>
    rw [tokensFrom, List.mem_cons, ih]
    constructor
    · rintro (rfl | ⟨front, x, back, rfl, rfl⟩)
      · exact ⟨[], y, row, rfl, rfl⟩
      · exact ⟨y :: front, x, back, rfl, by simp only [join_cons, Text.byteSize_append, Nat.add_assoc]⟩
    · rintro ⟨_ | ⟨z, front⟩, x, back, hrow, rfl⟩
      · obtain ⟨rfl, rfl⟩ := List.cons.inj hrow
        exact Or.inl rfl
      · obtain ⟨rfl, rfl⟩ := List.cons.inj hrow
        exact Or.inr ⟨front, x, back, rfl, by simp only [join_cons, Text.byteSize_append, Nat.add_assoc]⟩

/-- **The tokens of a text are where its lexemes are.** -/
theorem mem_tokens_iff {t : Text} {token : Token} : token ∈ tokens t ↔
    ∃ front x back, lexemes t = front ++ x :: back ∧ token = ⟨x.kind, Span.behind (join front) x.text⟩ := by
  rw [tokens, mem_tokensFrom_iff]
  simp only [Nat.zero_add, Span.behind]

theorem text_eq_of_lexemes {t : Text} {front back : List Lexeme} {x : Lexeme} (h : lexemes t = front ++ x :: back) :
    t = join front ++ x.text ++ join back := by
  rw [← join_lexemes t, h, join_append, join_cons, List.append_assoc]

/-- The span of a token lies between characters. -/
theorem fits_of_mem_tokens {t : Text} {token : Token} (h : token ∈ tokens t) : token.span.Fits (String.ofList t) := by
  obtain ⟨front, x, back, hrow, rfl⟩ := mem_tokens_iff.mp h
  rw [text_eq_of_lexemes hrow]
  exact Span.fits_behind _ _ _

/-- A row of digits in a text, with no digit in front of it and none behind it. -/
structure DigitRun (t before digits after : Text) : Prop where
  split : t = before ++ digits ++ after
  ne_nil : digits ≠ []
  isDigit : ∀ c ∈ digits, c.isDigit
  front : ∀ c, before.getLast? = some c → c.isDigit = false
  back : ∀ c, after.head? = some c → c.isDigit = false

/-- A row that ends in a digit ends in a numeral. -/
theorem isInteger_of_getLast?_join {row : List Lexeme} (hproper : ∀ x ∈ row, x.Proper) {c : Char}
    (hc : (join row).getLast? = some c) (hdigit : c.isDigit) : ∃ x, row.getLast? = some x ∧ x.isInteger := by
  rcases List.eq_nil_or_concat row with rfl | ⟨front, x, rfl⟩
  · cases hc
  · have hx : x.Proper := hproper x (by simp)
    have hne : x.text ≠ [] := fun hnil => by
      have hpos := byteSize_text_pos hx
      rw [hnil] at hpos
      exact absurd hpos (Nat.lt_irrefl 0)
    rw [List.concat_eq_append, join_append, join_cons, join_nil, List.append_nil,
      List.getLast?_append_of_ne_nil _ hne] at hc
    exact ⟨x, by simp, isInteger_of_getLast? hx hc hdigit⟩

/-- **The integers of a text are its runs of digits**, and these are as long as they can be. -/
theorem integer_mem_tokens_iff {t : Text} {span : Span} : ⟨.integer, span⟩ ∈ tokens t ↔
    ∃ before digits after, DigitRun t before digits after ∧ span = Span.behind before digits := by
  rw [mem_tokens_iff]
  constructor
  · rintro ⟨front, x, back, hrow, htoken⟩
    obtain ⟨hkind, rfl⟩ := Token.mk.injEq .. ▸ htoken
    obtain ⟨ds, rfl⟩ := kind_eq_integer_iff.mp hkind.symm
    have hproper : ∀ x ∈ front ++ numeral ds :: back, x.Proper := hrow ▸ proper_of_mem_lexemes
    have hsep : Separated (front ++ numeral ds :: back) := hrow ▸ separated_lexemes t
    obtain ⟨-, hsepback, hborder⟩ := List.isChain_append.mp hsep
    have hds := hproper (numeral ds) (by simp)
    refine ⟨_, ds, _, ⟨text_eq_of_lexemes hrow, hds.1, hds.2, fun c hc => ?_, fun c hc => ?_⟩, rfl⟩
    · refine Bool.eq_false_iff.mpr fun hdigit => ?_
      obtain ⟨y, hy, hinteger⟩ := isInteger_of_getLast?_join (fun y hy => hproper y (by simp [hy])) hc hdigit
      exact hborder y hy _ rfl ⟨hinteger, rfl⟩
    · exact not_isDigit_of_separated (fun y hy => hproper y (by simp [hy])) hsepback hc
  · rintro ⟨before, digits, after, hrun, rfl⟩
    refine ⟨lexemes before, numeral digits, lexemes after, ?_, by rw [join_lexemes]; rfl⟩
    rw [hrun.split, List.append_assoc, lexemes_append, lexemes_append, lexemes_digits hrun.ne_nil hrun.isDigit]
    · rfl
    · rintro c d - hd ⟨-, hdigit⟩
      rw [hrun.back d hd] at hdigit
      cases hdigit
    · rintro c d hc - ⟨hdigit, -⟩
      rw [hrun.front c hc] at hdigit
      cases hdigit

/-- **Any character that is not a digit is a token**, and has its kind. -/
theorem mark_mem_tokens_iff {t : Text} {kind : Kind} {span : Span} : ⟨kind, span⟩ ∈ tokens t ∧ kind ≠ .integer ↔
    ∃ before c after, t = before ++ [c] ++ after ∧ c.isDigit = false ∧ span = Span.behind before [c] ∧
      (kind.char? = some c ∨ kind = .unknown ∧ ∀ k : Kind, k.char? ≠ some c) := by
  rw [mem_tokens_iff]
  constructor
  · rintro ⟨⟨front, x, back, hrow, htoken⟩, hkind⟩
    obtain ⟨rfl, rfl⟩ := Token.mk.injEq .. ▸ htoken
    cases x with
    | numeral ds => exact absurd rfl hkind
    | mark c =>
      have hc : (mark c).Proper := proper_of_mem_lexemes (t := t) _ (by simp [hrow])
      exact ⟨join front, c, join back, text_eq_of_lexemes hrow, Bool.eq_false_iff.mpr hc, rfl,
        Kind.ofChar_eq_iff_or.mp rfl⟩
  · rintro ⟨before, c, after, rfl, hc, rfl, hkind⟩
    obtain rfl := Kind.ofChar_eq_iff_or.mpr hkind
    refine ⟨⟨lexemes before, mark c, lexemes after, ?_, by rw [join_lexemes]; rfl⟩, ?_⟩
    · rw [List.append_assoc, List.singleton_append, lexemes_append_mark hc]
    · intro hkind
      have hinteger : (mark c).isInteger := isInteger_iff.mpr hkind
      cases hinteger

/-! ## Texts in a row -/

/-- A token moved by a number of bytes. -/
def Token.shift (bytes : Nat) (token : Token) : Token :=
  ⟨token.kind, bytes + token.span.start, bytes + token.span.stop⟩

theorem tokensFrom_add (bytes start : Nat) (row : List Lexeme) :
    tokensFrom (bytes + start) row = (tokensFrom start row).map (Token.shift bytes) := by
  induction row generalizing start with
  | nil => rfl
  | cons x row ih =>
    rw [tokensFrom, tokensFrom, List.map_cons, ← ih, Nat.add_assoc]
    rfl

theorem tokensFrom_append (start : Nat) (r s : List Lexeme) :
    tokensFrom start (r ++ s) = tokensFrom start r ++ tokensFrom (start + (join r).byteSize) s := by
  induction r generalizing start with
  | nil => rfl
  | cons x r ih =>
    rw [List.cons_append, tokensFrom, tokensFrom, ih, join_cons, Text.byteSize_append, Nat.add_assoc]
    rfl

theorem map_kind_tokensFrom (start : Nat) (row : List Lexeme) :
    (tokensFrom start row).map Token.kind = row.map Lexeme.kind := by
  induction row generalizing start with
  | nil => rfl
  | cons x row ih => rw [tokensFrom, List.map_cons, List.map_cons, ih]

theorem map_kind_tokens (t : Text) : (tokens t).map Token.kind = (lexemes t).map Lexeme.kind :=
  map_kind_tokensFrom 0 (lexemes t)

/-- **The tokens of two texts in a row are those of both**, exactly if the border is not between two digits. -/
theorem tokens_append_iff {s t : Text} :
    s.getLast?.any Char.isDigit = false ∨ t.head?.any Char.isDigit = false ↔
      tokens (s ++ t) = tokens s ++ (tokens t).map (Token.shift s.byteSize) := by
  constructor
  · intro hborder
    have hrow : lexemes (s ++ t) = lexemes s ++ lexemes t := by
      refine lexemes_append fun c d hc hd hdigits => ?_
      rw [hc, hd] at hborder
      simp [hdigits] at hborder
    rw [tokens, hrow, tokensFrom_append, join_lexemes, Nat.zero_add, ← Nat.add_zero s.byteSize, tokensFrom_add]
    rfl
  · intro htokens
    refine Decidable.byContradiction fun hborder => ?_
    rw [not_or, Bool.not_eq_false, Bool.not_eq_false, Option.any_eq_true, ← startsNumeral_lexemes, startsNumeral_eq,
      Option.any_eq_true] at hborder
    obtain ⟨⟨c, hc, hdigit⟩, y, hy, hfirst⟩ := hborder
    rw [← join_lexemes s] at hc
    obtain ⟨x, hx, hlast⟩ := isInteger_of_getLast?_join proper_of_mem_lexemes hc hdigit
    -- two integers would stand side by side
    have hshift : Token.kind ∘ Token.shift s.byteSize = Token.kind := rfl
    have hkinds : (lexemes (s ++ t)).map Lexeme.kind = (lexemes s).map Lexeme.kind ++ (lexemes t).map Lexeme.kind := by
      rw [← map_kind_tokens, htokens, List.map_append, List.map_map, hshift, map_kind_tokens, map_kind_tokens]
    have hchain : ((lexemes (s ++ t)).map Lexeme.kind).IsChain fun j k => ¬ (j = .integer ∧ k = .integer) := by
      rw [List.isChain_map]
      exact (separated_lexemes (s ++ t)).imp fun x y hxy => by rwa [← isInteger_iff, ← isInteger_iff]
    rw [hkinds, List.isChain_append] at hchain
    refine hchain.2.2 x.kind ?_ y.kind ?_ ⟨isInteger_iff.mp hlast, isInteger_iff.mp hfirst⟩
    · rw [List.getLast?_map, hx]
      rfl
    · rw [List.head?_map, hy]
      rfl

/-! ## All together -/

/-- **The tokens of a text tile it.** They are what a scanner gives that takes the longest match. Their spans are not
empty and lie between characters, the first one begins with the text, each of the others where the one in front of it
ends, and the last one ends with the text. The integers are the longest rows of digits, and any other character is a
token by itself, of its kind. With another text behind it, the text keeps its tokens, and the tokens of the other text
follow, unless the border is between two digits. -/
theorem tokens_tile (t : Text) :
    (∀ found, Scanned 0 t found ↔ found = tokens t) ∧
    Tiles 0 ((tokens t).map Token.span) (String.ofList t).utf8ByteSize ∧
    (∀ token ∈ tokens t, token.span.Fits (String.ofList t)) ∧
    (∀ span, ⟨.integer, span⟩ ∈ tokens t ↔
      ∃ before digits after, DigitRun t before digits after ∧ span = Span.behind before digits) ∧
    (∀ kind span, ⟨kind, span⟩ ∈ tokens t ∧ kind ≠ .integer ↔
      ∃ before c after, t = before ++ [c] ++ after ∧ c.isDigit = false ∧ span = Span.behind before [c] ∧
        (kind.char? = some c ∨ kind = .unknown ∧ ∀ k : Kind, k.char? ≠ some c)) ∧
    ∀ u : Text, t.getLast?.any Char.isDigit = false ∨ u.head?.any Char.isDigit = false ↔
      tokens (t ++ u) = tokens t ++ (tokens u).map (Token.shift (String.ofList t).utf8ByteSize) := by
  have htiles := tiles_tokensFrom (proper_of_mem_lexemes (t := t)) 0
  rw [join_lexemes, Nat.zero_add] at htiles
  rw [utf8ByteSize_ofList]
  exact ⟨fun _ => scanned_iff, htiles, fun _ => fits_of_mem_tokens, fun _ => integer_mem_tokens_iff,
    fun _ _ => mark_mem_tokens_iff, fun _ => tokens_append_iff⟩

-- the digits of other scripts are unknown characters, of two bytes or more
example : tokens ['7', '٣', '4', '2', 'd'] =
    [⟨.integer, 0, 1⟩, ⟨.unknown, 1, 3⟩, ⟨.integer, 3, 5⟩, ⟨.die, 5, 6⟩] := by decide

end TabletopDice
