import TabletopDice.Evaluation
import TabletopDice.Log.Filter
import TabletopDice.Roller.ChaCha

/-!
# The command line

`roll INSTRUCTION [TIMES]` evaluates an instruction some number of times in one tray and prints each total with
two spaces behind it.

- `Invocation.read` reads the arguments: options may stand anywhere before `--`, each at most once;
- `rounds` evaluates and prints. The first fault ends it, and what has been printed before stays;
- `run` is the whole program: a report of the exit code and of both outputs.
-/

namespace TabletopDice.Command

/-! ## Arguments -/

/-- The options that take a number. -/
inductive Flag
  | seed
  | budget
  deriving DecidableEq, Repr

/-- Arguments as far as they have been read. -/
structure Draft where
  instruction : Option Text := none
  times : Option UInt64 := none
  seed : Option UInt64 := none
  budget : Option UInt64 := none
  deriving DecidableEq, Repr

namespace Draft

/-- Takes an argument that is no option: first the instruction, then the number of times. -/
def positional (draft : Draft) (arg : Text) : Option Draft :=
  match draft.instruction, draft.times with
  | none, _ => some { draft with instruction := some arg }
  | some _, none => (Numeral.read arg).toOption.map fun times => { draft with times := some times }
  | some _, some _ => none

/-- Takes an option with its value, unless the option has been given before. -/
def option (draft : Draft) (flag : Flag) (value : Text) : Option Draft :=
  match flag, Numeral.read value with
  | _, .error _ => none
  | .seed, .ok n => if draft.seed.isSome then none else some { draft with seed := some n }
  | .budget, .ok n => if draft.budget.isSome then none else some { draft with budget := some n }

end Draft

/-- The option with a long name, and the value behind `=` if there is one. -/
def longFlag? (arg : Text) : Option (Flag × Option Text) :=
  let (name, value) := match arg.cut? '=' with
    | none => (arg, none)
    | some (name, value) => (name, some value)
  if name = "--seed".toList then some (.seed, value)
  else if name = "--max-rolls".toList then some (.budget, value)
  else none

/-- The value that is attached to a short option, with or without `=`. -/
def attached? : Text → Option Text
  | [] => none
  | '=' :: value => some value
  | value => some value

/-- The option that an argument names, and the value attached to it. -/
def flag? : Text → Option (Flag × Option Text)
  | '-' :: 's' :: rest => some (.seed, attached? rest)
  | '-' :: 'm' :: rest => some (.budget, attached? rest)
  | arg => longFlag? arg

/-- Whether an argument can only be an option: it begins with `-` and is not `-` alone. -/
def isOption : Text → Bool
  | '-' :: _ :: _ => true
  | _ => false

/-- Reads arguments on. -/
def Draft.read (draft : Draft) : List Text → Option Draft
  | [] => some draft
  | arg :: rest =>
    if arg = "--".toList then rest.foldlM positional draft
    else if isOption arg then
      match flag? arg with
      | none => none
      | some (flag, some value) => do (← draft.option flag value).read rest
      | some (flag, none) =>
        match rest with
        | [] => none
        | value :: rest => if isOption value then none else do (← draft.option flag value).read rest
    else do (← draft.positional arg).read rest

/-- What the program is asked to do. -/
structure Invocation where
  instruction : Text
  times : Nat := 1
  seed : Option UInt64 := none
  budget : Option UInt64 := none
  deriving DecidableEq, Repr

/-- The invocation that the arguments make; the instruction has to be among them. -/
def Invocation.read (args : List Text) : Option Invocation := do
  let draft ← Draft.read {} args
  let instruction ← draft.instruction
  return { instruction, times := (draft.times.getD 1).toNat, seed := draft.seed, budget := draft.budget }

/-! ## Running -/

/-- An exit code and what has been written. -/
structure Report where
  code : Nat := 0
  stdout : String := ""
  stderr : String := ""
  deriving DecidableEq, Repr

namespace Report

/-- Writes to the output. -/
def print (report : Report) (text : String) : Report := { report with stdout := report.stdout ++ text }

/-- Writes to the error output. -/
def log (report : Report) (text : String) : Report := { report with stderr := report.stderr ++ text }

/-- Ends the program with a fault. -/
def fail (report : Report) (fault : Fault) : Report :=
  { report.log ("Error: " ++ fault.message ++ "\n") with code := 1 }

end Report

/-- A total as it is printed. -/
def printed (total : UInt64) : String := String.ofList (Numeral.write total.toNat) ++ "  "

/-- Evaluates an instruction so many times more, and ends the line. -/
def rounds {σ : Type} [Roller σ] (filter : Log.Filter) (instruction : Text) : Nat → Tray σ → Report → Report
  | 0, _, report => report.print "\n"
  | n + 1, tray, report =>
    match (evaluate instruction).run tray with
    | ⟨.ok total, tray, events⟩ =>
      let lines := events.map Event.line ++ [Log.rolledLine total tray.booked]
      rounds filter instruction n tray ((report.log (filter.render lines)).print (printed total))
    | ⟨.error fault, _, events⟩ => (report.log (filter.render (events.map Event.line))).fail fault

/-- How the program is used. -/
def usage : String := "usage: roll [-s|--seed N] [-m|--max-rolls N] INSTRUCTION [TIMES]\n"

/-- Runs the program on its arguments and the description of its log filter. Without a seed among the arguments
the number `entropy` is the seed. -/
def run (args : List Text) (filter : Option Text) (entropy : UInt64) : Report :=
  match Invocation.read args with
  | none => { code := 2, stderr := usage }
  | some invocation =>
    let generator := ChaCha.Generator.ofSeed (invocation.seed.getD entropy)
    let filter := (filter.bind Log.Filter.read).getD Log.Filter.default
    let tray : Tray ChaCha.Generator := { roller := generator, budget := invocation.budget }
    rounds filter invocation.instruction invocation.times tray {}

end TabletopDice.Command
