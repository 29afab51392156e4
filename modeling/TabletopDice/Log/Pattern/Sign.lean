import TabletopDice.Log.Pattern.Mode

/-!
# Signs of patterns

A sign is the smallest part of a pattern. Patterns match whole characters and know no properties of them. So where
characters are taken, folded cases, digits, blanks and words are refused; where bytes are taken, they are those of
ASCII, and whatever could match a part of a character is refused.

- `Sign.read` reads a sign, and `Sign.readInClass` one in brackets, where fewer characters have a meaning;
- `Sign.isAllowed` and `Sign.isAllowedInClass` say which signs a mode allows.
-/

namespace TabletopDice.Log.Pattern

/-- The smallest parts of a pattern. -/
inductive Sign
  /-- A character, or a byte if it is written by two hexadecimal digits. -/
  | letter (c : Char) (isByte : Bool)
  /-- Any character of a line. -/
  | any
  /-- A digit, a blank or a character of a word. -/
  | shorthand
  /-- The place where the text or a line begins or ends. -/
  | border
  /-- A place where a word begins or ends, or may not. -/
  | wordBorder
  deriving DecidableEq, Repr

namespace Sign

/-! ## Reading -/

/-- The value of a hexadecimal digit. -/
def hexDigit? (c : Char) : Option Nat :=
  if c.isDigit then some (c.toNat - '0'.toNat)
  else if 'a' ≤ c ∧ c ≤ 'f' then some (c.toNat - 'a'.toNat + 10)
  else if 'A' ≤ c ∧ c ≤ 'F' then some (c.toNat - 'A'.toNat + 10)
  else none

/-- Reads on in a number, for so many hexadecimal digits. -/
def readHex (mode : Mode) (value : Nat) : Nat → Text → Option (Nat × Text)
  | 0, t => some (value, t)
  | digits + 1, t =>
    match mode.skip t with
    | [] => none
    | c :: rest => (hexDigit? c).bind fun digit => readHex mode (16 * value + digit) digits rest

/-- How many hexadecimal digits follow a letter behind a backslash, if it announces any. -/
def hexLength? : Char → Option Nat
  | 'x' => some 2
  | 'u' => some 4
  | 'U' => some 8
  | _ => none

/-- The sign of a character behind a backslash; ASCII characters other than letters and digits stand for
themselves. -/
def ofEscaped : Char → Option Sign
  | 'd' | 's' | 'w' => some shorthand
  | 'A' | 'z' => some border
  | 'b' | 'B' | '<' | '>' => some wordBorder
  | 'a' => some (letter '\x07' false)
  | 't' => some (letter '\t' false)
  | 'n' => some (letter '\n' false)
  | 'v' => some (letter '\x0b' false)
  | 'f' => some (letter '\x0c' false)
  | 'r' => some (letter '\r' false)
  | c => if c.isAlphanum || 0x80 ≤ c.toNat then none else some (letter c false)

/-- The sign that begins behind a backslash. -/
def readEscape (mode : Mode) : Text → Option (Sign × Text)
  | [] => none
  | c :: rest =>
    match hexLength? c with
    | none => (ofEscaped c).map fun sign => (sign, rest)
    | some digits =>
      match readHex mode 0 digits rest with
      | none => none
      | some (n, rest) => if n.isValidChar then some (letter (Char.ofNat n) (c = 'x'), rest) else none

/-- The first sign of a text in brackets. -/
def readInClass (mode : Mode) : Text → Option (Sign × Text)
  | [] => none
  | '\\' :: rest => readEscape mode rest
  | c :: rest => some (letter c false, rest)

/-- The first sign of a text. -/
def read (mode : Mode) : Text → Option (Sign × Text)
  | '.' :: rest => some (any, rest)
  | '^' :: rest | '$' :: rest => some (border, rest)
  | t => readInClass mode t

/-! ## Modes -/

/-- Whether a sign may be used. -/
def isAllowed (mode : Mode) : Sign → Bool
  | letter c isByte => if mode.takesCharacters then !mode.foldsCase else !isByte || c.toNat < 0x80
  | any => mode.takesCharacters
  | border => true
  | shorthand | wordBorder => !mode.takesCharacters

/-- Whether a sign may be used in brackets: places may not. -/
def isAllowedInClass (mode : Mode) : Sign → Bool
  | letter c _ => if mode.takesCharacters then !mode.foldsCase else c.toNat < 0x80
  | shorthand => !mode.takesCharacters
  | any | border | wordBorder => false

/-- Whether two signs are the ends of a range. -/
def areRange : Sign → Sign → Bool
  | letter first _, letter last _ => first ≤ last
  | _, _ => false

end Sign
end TabletopDice.Log.Pattern
