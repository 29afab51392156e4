import TabletopDice.Text.Blank

/-!
# Modes of patterns

How a pattern is read depends on its mode, which flags may change on the way.

- `Mode.skip` leaves out what does not count;
- `Mode.change` is the mode that flags lead to.
-/

namespace TabletopDice.Log.Pattern

/-- How a pattern is read. -/
structure Mode where
  /-- Whether a letter stands for its upper and its lower case. -/
  foldsCase : Bool := false
  /-- Whether characters are matched; otherwise single bytes are. -/
  takesCharacters : Bool := true
  /-- Whether blanks and comments do not count. -/
  skipsBlanks : Bool := false
  deriving DecidableEq, Repr

/-! ## Blanks and comments -/

/-- The text behind its first blanks and comments; a comment goes from a `#` to the end of the line. -/
def dropBlanks (inComment : Bool) : Text → Text
  | [] => []
  | c :: rest =>
    if inComment then dropBlanks (c != '\n') rest
    else if Text.isBlank c then dropBlanks false rest
    else if c = '#' then dropBlanks true rest
    else c :: rest

namespace Mode

/-- The text from the first character that counts. -/
def skip (mode : Mode) (t : Text) : Text := if mode.skipsBlanks then dropBlanks false t else t

/-- The character that a dash is judged by: the next one that is no blank, past one `#`, and at the end of the text
the very next one. -/
def peek (mode : Mode) (t : Text) : Option Char :=
  if mode.skipsBlanks then
    let ahead :=
      match t.dropWhile Text.isBlank with
      | '#' :: comment => comment.dropWhile Text.isBlank
      | rest => rest
    ahead.head?.or t.head?
  else t.head?

/-! ## Flags -/

/-- The letters that are flags; those for lines, for `.` and for greed change nothing in what is read. -/
def flags : List Char := ['i', 'm', 's', 'U', 'u', 'R', 'x']

/-- The mode that a text of flags leads to: each letter at most once, and those behind a `-` are switched off. -/
def change (mode : Mode) (t : Text) : Option Mode :=
  let off := t.dropWhile fun c => c != '-'
  let switched (flag : Char) (before : Bool) : Bool := if t.contains flag then !off.contains flag else before
  if t.Nodup ∧ (t.all fun c => c = '-' || flags.contains c) ∧ t.getLast? ≠ some '-' then
    some { foldsCase := switched 'i' mode.foldsCase, takesCharacters := switched 'u' mode.takesCharacters,
           skipsBlanks := switched 'x' mode.skipsBlanks }
  else none

end Mode
end TabletopDice.Log.Pattern
