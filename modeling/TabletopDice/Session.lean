import TabletopDice.Evaluation

/-!
# Sessions

A session works on one buffer and one tray, step by step. It goes on after a fault: a failed step leaves behind
what it had changed.

- `Session.step` takes one step, and `Session.run` a list of them, with the session after each.
-/

namespace TabletopDice

/-- A buffer and a tray. -/
structure Session (σ : Type) where
  tray : Tray σ
  buffer : Text := []
  deriving DecidableEq, Repr

/-- What can be done in a session. -/
inductive Step
  /-- Puts a text in the buffer. -/
  | set (text : Text)
  /-- Makes one pass over the buffer. -/
  | pass
  /-- Replaces the groups in the buffer. -/
  | resolve
  /-- Computes the integer that the buffer reduces to, and keeps the buffer. -/
  | reduce
  | evaluate (instruction : Text)
  | roll (dice : Dice)
  /-- Computes the value of a text under a rule. -/
  | substitute (rule : Rule) (text : Text)
  /-- Takes all booked dice back. -/
  | reset
  deriving DecidableEq, Repr

/-- What a step that succeeds answers. -/
inductive Answer
  | quiet
  | pass (pass : Pass)
  | resolved
  | total (value : UInt64)
  | replacement (value : Int)
  deriving DecidableEq, Repr

namespace Session

variable {σ : Type}

/-- Makes a play on the tray and keeps the buffer. -/
def perform {α : Type} (session : Session σ) (play : Play σ α) (answer : α → Answer) :
    Except Fault Answer × Session σ :=
  match play.run session.tray with
  | ⟨result, tray, _⟩ => (result.map answer, { session with tray })

variable [Roller σ]

/-- Takes a step. -/
def step (session : Session σ) : Step → Except Fault Answer × Session σ
  | .set text => (.ok .quiet, { session with buffer := text })
  | .pass =>
    match (onePass session.buffer).run session.tray with
    | ⟨result, tray, _⟩ => (result.map .pass, ⟨tray, Pass.bufferAfter session.buffer result⟩)
  | .resolve =>
    match (resolveGroups session.buffer).run session.tray with
    | ⟨.ok ⟨buffer, none⟩, tray, _⟩ => (.ok .resolved, ⟨tray, buffer⟩)
    | ⟨.ok ⟨buffer, some fault⟩, tray, _⟩ => (.error fault, ⟨tray, buffer⟩)
    | ⟨.error fault, tray, _⟩ => (.error fault, { session with tray })
  | .reduce => session.perform (TabletopDice.reduce session.buffer) .total
  | .evaluate instruction => session.perform (TabletopDice.evaluate instruction) .total
  | .roll dice => session.perform (Play.roll dice) .total
  | .substitute rule text => session.perform (rule.valueOf text) .replacement
  | .reset => (.ok .quiet, { session with tray := session.tray.reset })

/-- Takes steps one after the other, each answered with the session that it leaves. -/
def run (session : Session σ) : List Step → List (Except Fault Answer × Session σ)
  | [] => []
  | s :: rest =>
    let taken := session.step s
    taken :: run taken.2 rest

end Session
end TabletopDice
