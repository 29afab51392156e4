import TabletopDice.Log.Pattern.Bracket
import TabletopDice.Text.Alphabetic

/-!
# Patterns

A pattern is a regular expression: signs, classes, groups and repetitions, in alternatives. A log filter only has to
know which texts are patterns, so a pattern is not kept when it has been read.

- `Reading.step` reads one part in front of a text, and `Reading.run` a whole text;
- `isValid`: a text is a pattern if it can be read, nothing in it is left open, and it is not nested too deep.
-/

namespace TabletopDice.Log.Pattern

/-- A part of a pattern. -/
structure Item where
  depth : Nat
  /-- Whether it can be repeated; flags cannot. -/
  isRepeatable : Bool := true
  deriving DecidableEq, Repr

/-- What has been read of an open group, or of the pattern outside all groups. -/
structure Scope where
  mode : Mode := {}
  /-- The depths of the alternatives before the last. -/
  branches : List Nat := []
  /-- The parts of the last alternative, the last part first. -/
  items : List Item := []
  deriving DecidableEq, Repr

namespace Scope

/-- The depth of the last alternative. -/
def branchDepth (scope : Scope) : Nat := Depth.row (scope.items.map Item.depth)

/-- The depth of all alternatives. -/
def depth (scope : Scope) : Nat := Depth.row (scope.branchDepth :: scope.branches)

/-- The scope with one part more. -/
def add (scope : Scope) (item : Item) : Scope := { scope with items := item :: scope.items }

/-- The scope with a new alternative. -/
def branch (scope : Scope) : Scope := { scope with branches := scope.branchDepth :: scope.branches, items := [] }

/-- The scope with its last part repeated. -/
def repeated (scope : Scope) : Option Scope :=
  match scope.items with
  | [] => none
  | item :: before =>
    if item.isRepeatable then some { scope with items := { depth := item.depth + 1 } :: before } else none

end Scope

/-- What has been read of a pattern. -/
structure Reading where
  /-- The innermost open group. -/
  scope : Scope := {}
  /-- The groups around it, from inside to outside. -/
  outer : List Scope := []
  /-- The open classes, from inside to outside. -/
  brackets : List Bracket := []
  /-- The names given to groups. -/
  names : List Text := []
  deriving DecidableEq, Repr

namespace Reading

/-- The mode in which to read on. -/
def mode (reading : Reading) : Mode := reading.scope.mode

/-- One part more in the innermost group. -/
def add (reading : Reading) (item : Item) : Reading := { reading with scope := reading.scope.add item }

/-! ## Groups -/

/-- A group has been opened. -/
def enter (reading : Reading) (mode : Mode) : Reading :=
  { reading with scope := { mode }, outer := reading.scope :: reading.outer }

/-- The innermost group has been closed. -/
def leave (reading : Reading) : Option Reading :=
  match reading.outer with
  | [] => none
  | scope :: outer => some { reading with scope := scope.add { depth := reading.scope.depth + 1 }, outer }

/-- Whether a text can be the name of a group. -/
def isName : Text → Bool
  | [] => false
  | first :: rest =>
    (first = '_' || Text.isAlphabetic first) &&
      rest.all fun c => c = '_' || c = '.' || c = '[' || c = ']' || Text.isAlphanumeric c

/-- A group whose name begins the text. -/
def readNamed (reading : Reading) (t : Text) : Option (Reading × Text) :=
  match t.cut? '>' with
  | none => none
  | some (name, rest) =>
    if isName name && !reading.names.contains name then
      some ({ reading.enter reading.mode with names := name :: reading.names }, rest)
    else none

/-- Flags that begin the text: for the group that they open with a `:`, or for the rest of the innermost group. -/
def readFlags (reading : Reading) (t : Text) : Option (Reading × Text) :=
  let flags := t.takeWhile fun c => c != ':' && c != ')'
  match reading.mode.change flags, t.drop flags.length with
  | some mode, ':' :: rest => some (reading.enter mode, rest)
  | some mode, ')' :: rest =>
    if flags = [] then none
    else
      let scope := reading.scope.add { depth := 0, isRepeatable := false }
      some ({ reading with scope := { scope with mode } }, rest)
  | _, _ => none

/-- A group that begins behind its `(`. -/
def readGroup (reading : Reading) : Text → Option (Reading × Text)
  | '?' :: 'P' :: '<' :: rest | '?' :: '<' :: rest => reading.readNamed rest
  | '?' :: rest => reading.readFlags rest
  | rest => some (reading.enter reading.mode, rest)

/-! ## Classes -/

/-- The innermost class has been closed. -/
def closeBracket (reading : Reading) (bracket : Bracket) : List Bracket → Reading
  | [] => { reading with brackets := [] }.add { depth := bracket.depth + 1 }
  | outer :: rest => { reading with brackets := outer.add (bracket.depth + 1) :: rest }

/-- One part of a class that is open inside others. -/
def readClass (reading : Reading) (bracket : Bracket) (outer : List Bracket) : Text → Option (Reading × Text)
  | [] => none
  | c :: rest =>
    let mode := reading.mode
    let within (bracket : Bracket) : Reading := { reading with brackets := bracket :: outer }
    if bracket.startsWith c then
      if (Sign.letter c false).isAllowedInClass mode then
        some (within { bracket.add 0 with isFresh := c = '-' }, rest)
      else none
    else if c = ']' then
      if bracket.isAllowed mode then some (reading.closeBracket bracket outer, rest) else none
    else if c = '[' then
      match Bracket.readNamed rest with
      | some (isNegated, rest) =>
        if Bracket.allowsNamed mode isNegated then some (within (bracket.add 0), rest) else none
      | none =>
        let (inner, rest) := Bracket.opened mode rest
        some ({ reading with brackets := inner :: bracket :: outer }, rest)
    else match Bracket.readOperator (c :: rest) with
      | some rest => some (within bracket.operate, rest)
      | none => (Bracket.readItem mode (c :: rest)).map fun rest => (within (bracket.add 0), rest)

/-! ## Whole patterns -/

/-- A sign that stands for itself. -/
def readSign (reading : Reading) (t : Text) : Option (Reading × Text) :=
  match Sign.read reading.mode t with
  | none => none
  | some (sign, rest) => if sign.isAllowed reading.mode then some (reading.add { depth := 0 }, rest) else none

/-- One part outside of classes. Counts of repetitions are written in braces, which a value cannot close. -/
def readPart (reading : Reading) : Text → Option (Reading × Text)
  | '(' :: rest => reading.readGroup (reading.mode.skip rest)
  | ')' :: rest => reading.leave.map fun reading => (reading, rest)
  | '|' :: rest => some ({ reading with scope := reading.scope.branch }, rest)
  | '[' :: rest =>
    let (bracket, rest) := Bracket.opened reading.mode rest
    some ({ reading with brackets := [bracket] }, rest)
  | '\x7b' :: _ => none
  | '?' :: rest | '*' :: rest | '+' :: rest =>
    let behind :=
      match rest with
      | '?' :: behind => behind
      | _ => rest
    reading.scope.repeated.map fun scope => ({ reading with scope }, behind)
  | t => reading.readSign t

/-- One part of a pattern. -/
def step (reading : Reading) (t : Text) : Option (Reading × Text) :=
  match reading.brackets with
  | [] => reading.readPart t
  | bracket :: outer => reading.readClass bracket outer t

/-- Reads a text to its end. -/
def run (reading : Reading) (t : Text) : Option Reading :=
  match reading.mode.skip t with
  | [] => some reading
  | c :: part =>
    match reading.step (c :: part) with
    | none => none
    | some (reading, rest) => if rest.length < t.length then reading.run rest else none
termination_by t.length

/-- Whether nothing is left open and the depth is allowed. -/
def isComplete (reading : Reading) : Bool :=
  reading.outer = [] && reading.brackets = [] && reading.scope.depth ≤ Depth.limit

end Reading

/-- Whether a text is a pattern. -/
def isValid (t : Text) : Bool := (Reading.run {} t).any Reading.isComplete

end TabletopDice.Log.Pattern
