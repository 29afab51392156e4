import TabletopDice.Text
import TabletopDice.Text.Unprintable

/-!
# Quoted texts

A text in double quotes on one line of printable characters: quotes, backslashes, tabs, line ends and NUL have
short escapes, and a character without a printed form is written by its code point in hexadecimal.
-/

namespace TabletopDice.Text

/-- A character by its code point. -/
def escapeCode (c : Char) : Text := ['\\', 'u', '\x7b'] ++ Nat.toDigits 16 c.toNat ++ ['\x7d']

/-- A character inside quotes. -/
def escape (c : Char) : Text :=
  if c = '\x00' then ['\\', '0']
  else if c = '\t' then ['\\', 't']
  else if c = '\n' then ['\\', 'n']
  else if c = '\r' then ['\\', 'r']
  else if c = '"' || c = '\\' then ['\\', c]
  else if isPrintable c then [c]
  else escapeCode c

/-- The quoted form of a text. -/
def quoted (t : Text) : Text := '"' :: (t.flatMap escape ++ ['"'])

end TabletopDice.Text
