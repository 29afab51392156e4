import TabletopDice.Text

/-!
# Lexemes

A text is a row of lexemes: maximal runs of ASCII digits, and single characters. Nothing is skipped; a
character without a meaning is a lexeme of kind `unknown`.

- the lexemes of a text spell it (`join_lexemes`), each of them is proper (`proper_of_mem_lexemes`), and a
  proper lexeme is the only lexeme of its own text (`Lexeme.lexemes_text`);
- `tokens` places the lexemes in the text by byte offsets;
- a lexeme is live if it is a numeral or a `d`. Joining two texts may glue two numerals, so it never makes more
  live lexemes (`live_lexemes_append_le`): this is the measure by which reductions end.
-/

namespace TabletopDice

/-- The meaning of a lexeme. -/
inductive Kind
  | integer
  | die
  | leftParen
  | rightParen
  | plus
  | minus
  | star
  | slash
  | unknown
  deriving DecidableEq, Repr

/-- The kind of a character that is not a digit. -/
def Kind.ofChar (c : Char) : Kind :=
  if c = 'd' then .die
  else if c = '(' then .leftParen
  else if c = ')' then .rightParen
  else if c = '+' then .plus
  else if c = '-' then .minus
  else if c = '*' then .star
  else if c = '/' then .slash
  else .unknown

/-- A run of digits, or one other character. -/
inductive Lexeme
  | numeral (digits : Text)
  | mark (c : Char)
  deriving DecidableEq, Repr

namespace Lexeme

/-- The kind of a lexeme. -/
def kind : Lexeme → Kind
  | numeral _ => .integer
  | mark c => .ofChar c

/-- The characters of a lexeme. -/
def text : Lexeme → Text
  | numeral digits => digits
  | mark c => [c]

/-- A numeral has digits, all its characters are digits, and a mark is not a digit. -/
def Proper : Lexeme → Prop
  | numeral digits => digits ≠ [] ∧ ∀ c ∈ digits, c.isDigit
  | mark c => ¬ c.isDigit

/-- Numerals and `d` are live: every reduction uses at least two of them up and leaves one. -/
def isLive : Lexeme → Bool
  | numeral _ => true
  | mark c => c = 'd'

/-- Puts a character in front: a digit lengthens a numeral that follows it. -/
def push (c : Char) (row : List Lexeme) : List Lexeme :=
  if c.isDigit then
    match row with
    | numeral digits :: rest => numeral (c :: digits) :: rest
    | row => numeral [c] :: row
  else mark c :: row

end Lexeme

open Lexeme

/-- The lexemes of a text, from left to right. -/
def lexemes (t : Text) : List Lexeme := t.foldr push []

/-- The text that a row of lexemes spells. -/
def join (row : List Lexeme) : Text := row.flatMap Lexeme.text

/-- The number of live lexemes of a row. -/
def live (row : List Lexeme) : Nat := row.countP isLive

/-- A text that consists of one numeral. -/
def isNumeral (t : Text) : Bool :=
  match lexemes t with
  | [numeral _] => true
  | _ => false

/-! ## Places -/

/-- A stretch of a text, from the byte offset `start` up to `stop`. -/
structure Span where
  start : Nat
  stop : Nat
  deriving DecidableEq, Repr

/-- A lexeme's kind and place. -/
structure Token where
  kind : Kind
  span : Span
  deriving DecidableEq, Repr

/-- The tokens of a row that begins at the offset `start`. -/
def tokensFrom (start : Nat) : List Lexeme → List Token
  | [] => []
  | x :: rest =>
    let stop := start + x.text.byteSize
    ⟨x.kind, start, stop⟩ :: tokensFrom stop rest

/-- The tokens of a text. -/
def tokens (t : Text) : List Token := tokensFrom 0 (lexemes t)

/-! ## Lexemes and texts -/

@[simp] theorem lexemes_nil : lexemes [] = [] := rfl

@[simp] theorem lexemes_cons (c : Char) (t : Text) : lexemes (c :: t) = push c (lexemes t) := rfl

@[simp] theorem join_nil : join [] = [] := rfl

@[simp] theorem join_cons (x : Lexeme) (row : List Lexeme) : join (x :: row) = x.text ++ join row := rfl

@[simp] theorem join_append (r s : List Lexeme) : join (r ++ s) = join r ++ join s := by
  simp [join]

/-- A character put in front of a row stands in front of its text. -/
theorem join_push (c : Char) (row : List Lexeme) : join (push c row) = c :: join row := by
  unfold push
  split
  · split <;> simp [Lexeme.text]
  · simp [Lexeme.text]

/-- The lexemes of a text spell it. -/
@[simp] theorem join_lexemes (t : Text) : join (lexemes t) = t := by
  induction t with
  | nil => rfl
  | cons c t ih => rw [lexemes_cons, join_push, ih]

/-- Putting a character in front keeps lexemes proper. -/
theorem proper_of_mem_push {c : Char} {row : List Lexeme} (hrow : ∀ x ∈ row, x.Proper) :
    ∀ x ∈ push c row, x.Proper := by
  unfold push
  split
  · rename_i hc
    split
    · rename_i digits rest
      intro x hx
      rcases List.mem_cons.mp hx with rfl | hx
      · have := hrow _ List.mem_cons_self
        exact ⟨by simp, by simpa [hc] using this.2⟩
      · exact hrow x (List.mem_cons_of_mem _ hx)
    · intro x hx
      rcases List.mem_cons.mp hx with rfl | hx
      · exact ⟨by simp, by simpa using hc⟩
      · exact hrow x hx
  · rename_i hc
    intro x hx
    rcases List.mem_cons.mp hx with rfl | hx
    · exact hc
    · exact hrow x hx

/-- Every lexeme of a text is proper. -/
theorem proper_of_mem_lexemes {t : Text} : ∀ x ∈ lexemes t, x.Proper := by
  induction t with
  | nil => simp
  | cons c t ih => exact proper_of_mem_push ih

/-- Digits are the lexemes of one numeral. -/
theorem lexemes_digits {ds : Text} (hne : ds ≠ []) (hds : ∀ c ∈ ds, c.isDigit) : lexemes ds = [numeral ds] := by
  induction ds with
  | nil => exact absurd rfl hne
  | cons c rest ih =>
    have hc : c.isDigit := hds c List.mem_cons_self
    cases rest with
    | nil => simp [push, hc]
    | cons d rest =>
      rw [lexemes_cons, ih (by simp) (fun x hx => hds x (List.mem_cons_of_mem _ hx))]
      simp [push, hc]

/-- A proper lexeme is the only lexeme of its text. -/
theorem Lexeme.lexemes_text {x : Lexeme} (hx : x.Proper) : lexemes x.text = [x] := by
  cases x with
  | numeral ds => exact lexemes_digits hx.1 hx.2
  | mark c => simp only [Proper, Bool.not_eq_true] at hx; simp [Lexeme.text, push, hx]

/-! ## Live lexemes -/

@[simp] theorem live_nil : live [] = 0 := rfl

@[simp] theorem live_append (r s : List Lexeme) : live (r ++ s) = live r + live s := by
  simp [live]

theorem live_cons (x : Lexeme) (row : List Lexeme) : live (x :: row) = live row + if x.isLive then 1 else 0 := by
  simp [live, List.countP_cons]

/-- Whether a row begins with a numeral. -/
def startsNumeral : List Lexeme → Bool
  | numeral _ :: _ => true
  | _ => false

/-- A row begins with a numeral exactly after a digit has been put in front. -/
theorem startsNumeral_push (c : Char) (row : List Lexeme) : startsNumeral (push c row) = c.isDigit := by
  unfold push
  split
  · rename_i hc; split <;> simp [startsNumeral, hc]
  · rename_i hc; simp [startsNumeral, hc]

/-- What a character in front adds to the live lexemes. -/
theorem live_push (c : Char) (row : List Lexeme) :
    live (push c row) = live row + if c = 'd' ∨ (c.isDigit ∧ ¬ startsNumeral row) then 1 else 0 := by
  unfold push
  split
  · rename_i hc
    have hd : c ≠ 'd' := by rintro rfl; simp [Char.isDigit] at hc
    split
    · simp [live_cons, isLive, startsNumeral, hd]
    · rename_i h
      have hs : startsNumeral row = false := by
        cases row with
        | nil => rfl
        | cons x rest => cases x with
          | numeral ds => exact absurd rfl (h ds rest)
          | mark c => rfl
      simp [live_cons, isLive, hs, hc]
  · rename_i hc
    simp [live_cons, isLive, hc]

/-- Joining two texts makes no new live lexeme. -/
theorem live_lexemes_append_le (s t : Text) : live (lexemes (s ++ t)) ≤ live (lexemes s) + live (lexemes t) := by
  induction s with
  | nil => simp
  | cons c s ih =>
    have hs : startsNumeral (lexemes s) → startsNumeral (lexemes (s ++ t)) := by
      cases s with
      | nil => intro h; simp [startsNumeral] at h
      | cons d s => simp [startsNumeral_push]
    simp only [List.cons_append, lexemes_cons, live_push]
    split <;> split
    · omega
    · rename_i h h'
      exact absurd (h.imp_right fun hd => ⟨hd.1, fun hn => hd.2 (hs hn)⟩) h'
    · omega
    · omega

/-- Proper lexemes, written out and read again, have no new live lexemes among them. -/
theorem live_lexemes_join_le {row : List Lexeme} (hrow : ∀ x ∈ row, x.Proper) :
    live (lexemes (join row)) ≤ live row := by
  induction row with
  | nil => simp
  | cons x rest ih =>
    have h := live_lexemes_append_le x.text (join rest)
    rw [lexemes_text (hrow x List.mem_cons_self)] at h
    have := ih fun y hy => hrow y (List.mem_cons_of_mem _ hy)
    rw [join_cons, live_cons]
    simp only [live_cons, live_nil] at h
    omega

end TabletopDice
