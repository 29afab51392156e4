import Mathlib.Data.List.Chain
import TabletopDice.Numeral
import TabletopDice.Lexeme

/-!
# Rows of lexemes and the texts they spell

- Away from a border between two digits, the lexemes of two texts in a row are the lexemes of both
  (`lexemes_append`);
- the lexemes of a text are `Separated`: no numeral follows a numeral (`separated_lexemes`). A separated row of proper
  lexemes is read back from the text that it spells (`lexemes_join`);
- `scan` gives the kind and the text of each token of a text, cut out of it at the token's span: these are the kinds
  and the texts of its lexemes (`scan_eq`);
- `integerRow` is the row that a written integer spells.
-/

namespace TabletopDice

open Lexeme

/-! ## Borders between lexemes -/

/-- Whether a lexeme is a numeral. -/
def Lexeme.isInteger : Lexeme → Bool
  | numeral _ => true
  | mark _ => false

/-- Rows in which no numeral follows a numeral. -/
def Separated (row : List Lexeme) : Prop := row.IsChain fun x y => ¬ (x.isInteger ∧ y.isInteger)

theorem startsNumeral_eq (row : List Lexeme) : startsNumeral row = row.head?.any Lexeme.isInteger := by
  rcases row with _ | ⟨_ | _, _⟩ <;> rfl

theorem startsNumeral_lexemes (t : Text) : startsNumeral (lexemes t) = t.head?.any Char.isDigit := by
  cases t with
  | nil => rfl
  | cons c t => rw [lexemes_cons, startsNumeral_push]; rfl

/-- A character in front of two rows joins the first one, unless that is empty and the character a digit. -/
theorem push_append {c : Char} {r s : List Lexeme} (h : r = [] → c.isDigit → startsNumeral s = false) :
    push c (r ++ s) = push c r ++ s := by
  rcases r with _ | ⟨x, r⟩
  · unfold push
    split
    · rename_i hc
      have hs := h rfl hc
      rcases s with _ | ⟨_ | _, _⟩
      · rfl
      · simp [startsNumeral] at hs
      · rfl
    · rfl
  · unfold push
    split
    · cases x <;> rfl
    · rfl

theorem lexemes_eq_nil {t : Text} (h : lexemes t = []) : t = [] := by
  rw [← join_lexemes t, h, join_nil]

/-- **Two texts in a row have the lexemes of both**, unless their border lies between two digits. -/
theorem lexemes_append {s t : Text}
    (h : ∀ c d, s.getLast? = some c → t.head? = some d → ¬ (c.isDigit ∧ d.isDigit)) :
    lexemes (s ++ t) = lexemes s ++ lexemes t := by
  induction s with
  | nil => rfl
  | cons c s ih =>
    have hrest : lexemes (s ++ t) = lexemes s ++ lexemes t := ih fun e d he hd => by
      cases s with
      | nil => cases he
      | cons => exact h e d (by rw [← he, List.getLast?_cons_cons]) hd
    rw [List.cons_append, lexemes_cons, hrest, lexemes_cons]
    refine push_append fun hnil hc => ?_
    rw [startsNumeral_lexemes]
    cases hd : t.head? with
    | none => rfl
    | some d =>
      have hb := h c d (by rw [lexemes_eq_nil hnil]; rfl) hd
      simpa [hc] using hb

theorem separated_push {c : Char} {row : List Lexeme} (h : Separated row) : Separated (push c row) := by
  unfold Separated at h ⊢
  unfold push
  split
  · split
    · rcases h with _ | _ | ⟨hxy, hrest⟩
      · exact .singleton _
      · exact .cons_cons hxy hrest
    · rename_i hrow
      refine List.isChain_cons.mpr ⟨fun y hy => ?_, h⟩
      rcases row with _ | ⟨_ | _, _⟩
      · cases hy
      · exact absurd rfl (hrow _ _)
      · obtain rfl := Option.some.inj hy
        simp [Lexeme.isInteger]
  · exact List.isChain_cons.mpr ⟨fun y _ => by simp [Lexeme.isInteger], h⟩

/-- The lexemes of a text are separated: numerals are as long as they can be. -/
theorem separated_lexemes (t : Text) : Separated (lexemes t) := by
  induction t with
  | nil => exact .nil
  | cons c t ih => exact separated_push ih

/-- The last character of a proper lexeme tells what it is. -/
theorem isInteger_of_getLast? {x : Lexeme} (hx : x.Proper) {c : Char} (hc : x.text.getLast? = some c)
    (hd : c.isDigit) : x.isInteger := by
  cases x with
  | numeral ds => rfl
  | mark d =>
    obtain rfl : d = c := by simpa [Lexeme.text] using hc
    exact absurd hd hx

/-- The first character that a row spells tells what the row begins with. -/
theorem startsNumeral_of_head? {row : List Lexeme} (hrow : ∀ x ∈ row, x.Proper) {d : Char}
    (hd : (join row).head? = some d) (hdig : d.isDigit) : startsNumeral row := by
  rcases row with _ | ⟨_ | c, rest⟩
  · cases hd
  · rfl
  · obtain rfl : c = d := by simpa [Lexeme.text] using hd
    exact absurd hdig (hrow _ List.mem_cons_self)

/-- **A separated row of proper lexemes is read back from its text.** -/
theorem lexemes_join {row : List Lexeme} (hrow : ∀ x ∈ row, x.Proper) (hsep : Separated row) :
    lexemes (join row) = row := by
  induction row with
  | nil => rfl
  | cons x rest ih =>
    have hx := hrow x List.mem_cons_self
    have hrest : ∀ y ∈ rest, y.Proper := fun y hy => hrow y (List.mem_cons_of_mem _ hy)
    rw [Separated, List.isChain_cons] at hsep
    rw [join_cons, lexemes_append, lexemes_text hx, ih hrest hsep.2]
    · rfl
    · rintro c d hc hd ⟨hcd, hdd⟩
      have hs := startsNumeral_of_head? hrest hd hdd
      rw [startsNumeral_eq, Option.any_eq_true] at hs
      obtain ⟨y, hy, hnum⟩ := hs
      exact hsep.1 y hy ⟨isInteger_of_getLast? hx hc hcd, hnum⟩

/-! ## Tokens and the texts at their spans -/

/-- The part of a text at a span. -/
def Text.slice (t : Text) (span : Span) : Text := Text.takeBytes (span.stop - span.start) (Text.dropBytes span.start t)

/-- The kind and the text of each token. -/
def scan (t : Text) : List (Kind × Text) := (tokens t).map fun token => (token.kind, t.slice token.span)

/-- The kinds and the texts of a row. -/
def entries (row : List Lexeme) : List (Kind × Text) := row.map fun x => (x.kind, x.text)

@[simp] theorem entries_append (r s : List Lexeme) : entries (r ++ s) = entries r ++ entries s := by
  simp [entries]

@[simp] theorem Text.dropBytes_byteSize_append (s t : Text) : Text.dropBytes s.byteSize (s ++ t) = t := by
  induction s with
  | nil => cases t <;> rfl
  | cons c s ih =>
    have hc := c.utf8Size_pos
    obtain ⟨n, hn⟩ : ∃ n, c.utf8Size + Text.byteSize s = n + 1 := ⟨_, (Nat.succ_pred_eq_of_pos (by omega)).symm⟩
    have hs : n + 1 - c.utf8Size = Text.byteSize s := by omega
    rw [Text.byteSize_cons, hn, List.cons_append, Text.dropBytes, hs, ih]
    simp

@[simp] theorem Text.takeBytes_byteSize_append (s t : Text) : Text.takeBytes s.byteSize (s ++ t) = s := by
  have h := Text.takeBytes_append_dropBytes s.byteSize (s ++ t)
  rw [Text.dropBytes_byteSize_append] at h
  exact List.append_cancel_right h

/-- At the span of a part of a text stands that part. -/
theorem Text.slice_append (a b c : Text) : Text.slice (a ++ b ++ c) ⟨a.byteSize, a.byteSize + b.byteSize⟩ = b := by
  rw [Text.slice, List.append_assoc, Text.dropBytes_byteSize_append, Nat.add_sub_cancel_left,
    Text.takeBytes_byteSize_append]

/-- The tokens of a row, with what stands at their spans behind a text of the bytes before it. -/
theorem map_slice_tokensFrom (front : Text) (row : List Lexeme) :
    (tokensFrom front.byteSize row).map (fun token => (token.kind, Text.slice (front ++ join row) token.span)) =
      entries row := by
  induction row generalizing front with
  | nil => rfl
  | cons x rest ih =>
    have h := ih (front ++ x.text)
    rw [Text.byteSize_append, List.append_assoc, ← join_cons] at h
    simp only [tokensFrom, List.map_cons, h, entries]
    rw [join_cons, ← List.append_assoc, Text.slice_append]

/-- **The tokens of a text are its lexemes.** -/
theorem scan_eq (t : Text) : scan t = entries (lexemes t) := by
  have h := map_slice_tokensFrom [] (lexemes t)
  rwa [join_lexemes] at h

/-! ## Written integers -/

/-- The row that a written integer spells. -/
def integerRow : Int → List Lexeme
  | .ofNat n => [numeral (Numeral.write n)]
  | .negSucc n => [mark '-', numeral (Numeral.write (n + 1))]

@[simp] theorem join_integerRow (value : Int) : join (integerRow value) = Numeral.writeInt value := by
  cases value <;> simp [integerRow, Lexeme.text, Numeral.writeInt]

theorem proper_write (n : Nat) : (numeral (Numeral.write n)).Proper :=
  ⟨Numeral.write_ne_nil n, fun _ hc => Numeral.isDigit_of_mem_write hc⟩

theorem proper_of_mem_integerRow {value : Int} : ∀ x ∈ integerRow value, x.Proper := by
  cases value with
  | ofNat n => simpa [integerRow] using proper_write n
  | negSucc n =>
    have hminus : (mark '-').Proper := show ¬ ('-').isDigit by decide
    simpa [integerRow, proper_write] using hminus

@[simp] theorem live_integerRow (value : Int) : live (integerRow value) = 1 := by
  cases value <;> rfl

end TabletopDice
