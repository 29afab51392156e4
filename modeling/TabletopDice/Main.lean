import TabletopDice.Command

/-!
# The program `roll`

Arguments, the variable `RUST_LOG`, random bytes and the two outputs; all else is `Command.run`.
-/

/-- A random number from the system. -/
def TabletopDice.entropy : IO UInt64 := do
  let bytes ← IO.getRandomBytes 8
  return bytes.foldl (fun n byte => n * 256 + byte.toUInt64) 0

def main (args : List String) : IO UInt32 := do
  let filter ← IO.getEnv "RUST_LOG"
  let report := TabletopDice.Command.run (args.map String.toList) (filter.map String.toList)
    (← TabletopDice.entropy)
  (← IO.getStdout).putStr report.stdout
  (← IO.getStderr).putStr report.stderr
  return report.code.toUInt32
