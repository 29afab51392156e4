import TabletopDice.Log
import TabletopDice.Log.Value

/-!
# Log filters

A filter is a list of directives, separated by commas where it is written. A directive is a level for all targets,
or `target[span{field=value}]=level`, in which all parts may be missing but one of the first two.

- `Directive.read` reads a directive and `Filter.read` a filter; a filter with an unreadable directive is none;
- `Filter.shows` goes by the most specific directive that applies to a line.
-/

namespace TabletopDice
namespace Log

/-- The names of the fields of a line; its message is one of them. -/
def Line.fieldNames (line : Line) : List Text := "message".toList :: line.fields.map fun field => field.name.toList

/-- The rank of a level by its number or by its name in any case; `off` is below all levels. -/
def readRank (t : Text) : Option Nat :=
  let ranks : List (String × Nat) := ("OFF", 0) :: Level.all.map fun level => (level.name, level.rank)
  let isMeant (r : String × Nat) : Bool :=
    match Numeral.read t with
    | .ok n => n.toNat = r.2
    | .error _ => t.map Char.toUpper = r.1.toList
  (ranks.find? isMeant).map Prod.snd

/-- Shows the lines that it applies to up to a rank. -/
structure Directive where
  /-- What the target begins with, if it matters. -/
  target : Option Text := none
  /-- Whether only lines inside a span are meant. -/
  inSpan : Bool := false
  /-- A field that has to be there, and the value that it must have, if one is asked for. -/
  field : Option (Text × Option Text) := none
  /-- The highest rank shown. -/
  most : Nat
  deriving DecidableEq, Repr

/-- A filter is a list of directives. -/
abbrev Filter := List Directive

/-! ## Reading -/

namespace Directive

/-- The characters that a target may begin with. -/
def startsTarget (c : Char) : Bool := Text.isAlphanumeric c || c = '-' || c = ':' || c = '_'

/-- The rank behind a `=`; without a level everything is shown. -/
def readMost (t : Text) : Option Nat := if t = [] then some Level.trace.rank else readRank t

/-- A directive of a single word: a level, or else a target of which everything is shown. -/
def ofWord (t : Text) : Directive :=
  match readRank t with
  | some most => { most }
  | none => { target := some t, most := Level.trace.rank }

/-- The end of a directive, read from the text that `whole` gives for it. -/
def readEnd (whole : Text → Text) : Text → Option Nat
  | [] => some Level.trace.rank
  | '=' :: level => readMost (whole level)
  | _ => none

/-- The field and the value between braces; what stands behind a second `=` does not count. -/
def readField (t : Text) : Option (Text × Option Text) :=
  match t.cut? '=' with
  | none => some (t, none)
  | some (name, rest) =>
    let value := rest.takeWhile fun c => c != '='
    if isValue value then some (name, some value) else none

/-- A directive from the text behind its `[`: a span, or a field in braces behind a span or none. -/
def readScope (whole : Text → Text) (t : Text) : Option Directive :=
  match t.dropWhile fun c => c != ']' && c != '\x7b' with
  | ']' :: rest => (readEnd whole rest).map fun most => { inSpan := true, most }
  | '\x7b' :: rest =>
    match Text.cut? '\x7d' rest with
    | some (c :: field, ']' :: last) =>
      match readField ((whole rest).takeBytes (Text.byteSize (c :: field))), readEnd whole last with
      | some field, some most => some { inSpan := t.head? != some '\x7b', field := some field, most }
      | _, _ => none
    | _ => none
  | _ => none

/-- A directive. The blanks around it do not count where its parts are looked for; a part is then cut out of the
text, blanks included, by the bytes in front of it, and the last part takes the rest. -/
def read (t : Text) : Option Directive :=
  let bare := t.trim
  let whole (part : Text) : Text := t.dropBytes (bare.byteSize - part.byteSize)
  let word := bare.takeWhile fun c => c != '=' && c != '['
  let target := if word = [] then none else some (t.takeBytes (Text.byteSize word))
  if !word.head?.all startsTarget then none
  else match bare.drop word.length with
    | '[' :: scope => (readScope whole scope).map fun directive => { directive with target }
    | [] => if word = [] then none else some (ofWord t)
    | last => if word = [] then none else (readEnd whole last).map fun most => { target, most }

end Directive

namespace Filter

/-- Warnings and errors of all targets. -/
def default : Filter := [{ most := Level.warn.rank }]

/-- The parts of a text between commas. -/
def parts : Text → List Text
  | [] => [[]]
  | c :: rest =>
    if c = ',' then [] :: parts rest
    else match parts rest with
      | [] => [[c]]
      | part :: others => (c :: part) :: others

/-- The filter that a text describes, if all its directives can be read; empty parts do not count. -/
def read (t : Text) : Option Filter := ((parts t).filter fun part => part != []).mapM Directive.read

end Filter

/-! ## Showing lines -/

namespace Directive

/-- Whether a directive applies to a line. No line is inside a span, and only spans have their values compared. -/
def appliesTo (directive : Directive) (line : Line) : Bool :=
  !directive.inSpan && directive.target.all (fun target => target.isPrefixOf line.target.toList) &&
    match directive.field with
    | none => true
    | some (name, none) => line.fieldNames.contains name
    | some (_, some _) => false

/-- A measure of the target: a longer one is more specific than a shorter one, and any than none. -/
def reach (directive : Directive) : Nat := directive.target.elim 0 fun target => target.byteSize + 1

/-- The name of the field asked for. -/
def fieldName (directive : Directive) : Text := directive.field.elim [] Prod.fst

/-- The more specific of two directives: by target, then by field, then the later one. -/
def moreSpecific (first second : Directive) : Directive :=
  if second.reach < first.reach || (second.reach = first.reach && second.fieldName < first.fieldName) then first
  else second

end Directive

namespace Filter

/-- The rank up to which a filter shows lines like this one. -/
def rankFor (filter : Filter) (line : Line) : Nat :=
  match filter.filter fun directive => directive.appliesTo line with
  | [] => 0
  | first :: rest => (rest.foldl Directive.moreSpecific first).most

/-- Whether a line is shown. -/
def shows (filter : Filter) (line : Line) : Bool := line.level.rank ≤ filter.rankFor line

/-- The shown lines as text. -/
def render (filter : Filter) (lines : List Line) : String :=
  String.join ((lines.filter filter.shows).map Line.render)

end Filter
end Log
end TabletopDice
