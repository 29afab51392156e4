import TabletopDice.Event
import TabletopDice.Text.Quoted

/-!
# Log lines

Events are logged as lines: a level, a target, a message and fields.

- `Event.line` is the log line of an event, and `Line.render` writes a line.
-/

namespace TabletopDice
namespace Log

/-- How detailed a line is. -/
inductive Level
  | error
  | warn
  | info
  | debug
  | trace
  deriving DecidableEq, Repr

namespace Level

/-- The name of a level on a line. -/
def name : Level → String
  | error => "ERROR"
  | warn => "WARN"
  | info => "INFO"
  | debug => "DEBUG"
  | trace => "TRACE"

/-- A more detailed level has a higher rank. -/
def rank : Level → Nat
  | error => 1
  | warn => 2
  | info => 3
  | debug => 4
  | trace => 5

/-- All levels, the most urgent first. -/
def all : List Level := [error, warn, info, debug, trace]

end Level

/-- A named value; a quoted one is put in quotes on a line. -/
structure Field where
  name : String
  value : Text
  isQuoted : Bool := false
  deriving DecidableEq, Repr

/-- The field of a number. -/
def Field.number (name : String) (n : Nat) : Field := ⟨name, Numeral.write n, false⟩

/-- A log line before it is written. -/
structure Line where
  level : Level
  target : String
  message : String
  fields : List Field
  deriving DecidableEq, Repr

/-- A field on a line. -/
def Field.render (field : Field) : Text :=
  ' ' :: (field.name.toList ++ '=' :: if field.isQuoted then field.value.quoted else field.value)

/-- A line as text, with its end. -/
def Line.render (line : Line) : String :=
  line.level.name ++ " " ++ line.target ++ ": " ++ line.message ++
    String.ofList (line.fields.flatMap Field.render) ++ "\n"

/-! ## The lines of the program -/

/-- The target of the reductions. -/
def reductionTarget : String := "dice_roll::reduce::engine"

/-- The target of the rolls. -/
def rollTarget : String := "dice_roll::reduce::rule"

/-- The target of the command line. -/
def commandTarget : String := "roll"

/-- The line of a total that the command line prints. -/
def rolledLine (total rolls : UInt64) : Line :=
  ⟨.debug, commandTarget, "rolled", [.number "total" total.toNat, .number "rolls" rolls.toNat]⟩

end Log

/-- The line of an event. -/
def Event.line : Event → Log.Line
  | .rolled dice total =>
    ⟨.trace, Log.rollTarget, "rolled", [⟨"dice", dice.write, false⟩, .number "total" total.toNat]⟩
  | .substituting rule matched value => ⟨.trace, Log.reductionTarget, "substituting",
      [⟨"rule", rule.name.toList, false⟩, ⟨"matched", matched, true⟩, ⟨"value", Numeral.writeInt value, false⟩]⟩
  | .reduced buffer => ⟨.trace, Log.reductionTarget, "reduced", [⟨"buffer", buffer, false⟩]⟩
  | .resolvedGroup group value =>
    ⟨.debug, Log.reductionTarget, "resolved group", [⟨"group", group, true⟩, .number "value" value.toNat]⟩
  | .evaluated instruction total rolls => ⟨.debug, Log.reductionTarget, "evaluated",
      [⟨"instruction", instruction, true⟩, .number "total" total.toNat, .number "rolls" rolls.toNat]⟩

end TabletopDice
