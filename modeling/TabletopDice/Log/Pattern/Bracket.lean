import TabletopDice.Log.Pattern.Depth
import TabletopDice.Log.Pattern.Sign

/-!
# Classes in brackets

A class lists characters, ranges and other classes between brackets; `&&`, `--` and `~~` combine what stands on
their two sides.

- `Bracket.readItem` reads a character or a range;
- `Bracket.readNamed` reads a named class such as `[:digit:]`.
-/

namespace TabletopDice.Log.Pattern

/-- What has been read of an open class. -/
structure Bracket where
  /-- Whether the characters that are not listed are meant. -/
  isNegated : Bool
  /-- Whether nothing has been read but dashes. -/
  isFresh : Bool := true
  /-- The depth of what stands in front of the last operator, if there is one. -/
  left : Option Nat := none
  /-- The depths of the parts behind it. -/
  parts : List Nat := []
  deriving DecidableEq, Repr

namespace Bracket

/-- The class that begins behind a `[`, and the text behind its first signs. -/
def opened (mode : Mode) (t : Text) : Bracket × Text :=
  match mode.skip t with
  | '^' :: rest => ({ isNegated := true }, rest)
  | rest => ({ isNegated := false }, rest)

/-- Whether a character stands for itself at the start of a class: dashes do, and a `]` that comes first. -/
def startsWith (bracket : Bracket) (c : Char) : Bool :=
  bracket.isFresh && (c = '-' || (c = ']' && bracket.parts = []))

/-- The class with one part more. -/
def add (bracket : Bracket) (depth : Nat) : Bracket :=
  { bracket with isFresh := false, parts := depth :: bracket.parts }

/-- The depth of what has been listed. -/
def depth (bracket : Bracket) : Nat :=
  match bracket.left with
  | none => Depth.row bracket.parts
  | some left => max left (Depth.row bracket.parts) + 1

/-- The class behind an operator. -/
def operate (bracket : Bracket) : Bracket :=
  { bracket with isFresh := false, left := some bracket.depth, parts := [] }

/-- Whether a class may be closed: what it leaves out has to be characters. -/
def isAllowed (mode : Mode) (bracket : Bracket) : Bool := mode.takesCharacters || !bracket.isNegated

/-- The text behind an operator. -/
def readOperator : Text → Option Text
  | '&' :: '&' :: rest | '-' :: '-' :: rest | '~' :: '~' :: rest => some rest
  | _ => none

/-- The text behind a character or a range. A dash between two characters makes a range, but not in front of a
second dash or at the end of the class. -/
def readItem (mode : Mode) (t : Text) : Option Text :=
  match Sign.readInClass mode t with
  | none => none
  | some (first, rest) =>
    if !first.isAllowedInClass mode then none
    else match mode.skip rest with
      | '-' :: behind =>
        if mode.peek behind = some ']' ∨ mode.peek behind = some '-' then some ('-' :: behind)
        else match Sign.readInClass mode (mode.skip behind) with
          | none => none
          | some (last, rest) => if last.isAllowedInClass mode && first.areRange last then some rest else none
      | rest => some rest

/-! ## Named classes -/

/-- The classes with a name. -/
def names : List String :=
  ["alnum", "alpha", "ascii", "blank", "cntrl", "digit", "graph", "lower", "print", "punct", "space", "upper", "word",
   "xdigit"]

/-- The text behind a name and its `:]`. -/
def readName (t : Text) : Option Text :=
  match t.cut? ':' with
  | some (name, ']' :: rest) => if names.any fun known => known.toList = name then some rest else none
  | _ => none

/-- Whether a named class that begins behind a `[` is negated, and the text behind it. -/
def readNamed : Text → Option (Bool × Text)
  | ':' :: '^' :: t => (readName t).map fun rest => (true, rest)
  | ':' :: t => (readName t).map fun rest => (false, rest)
  | _ => none

/-- Whether a named class may be used. -/
def allowsNamed (mode : Mode) (isNegated : Bool) : Bool :=
  if mode.takesCharacters then !mode.foldsCase else !isNegated

end Bracket
end TabletopDice.Log.Pattern
