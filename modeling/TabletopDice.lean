import TabletopDice.Main
import TabletopDice.Roller.Replay
import TabletopDice.Session
import TabletopDice.Proofs.Occurrence
import TabletopDice.Proofs.Play
import TabletopDice.Proofs.RowReduction
import TabletopDice.Proofs.Digits
import TabletopDice.Proofs.LockStep
import TabletopDice.Proofs.Nesting
import TabletopDice.Proofs.Resolution
import TabletopDice.Proofs.Chain
import TabletopDice.Proofs.Expression
import TabletopDice.Proofs.Acceptance
import TabletopDice.Proofs.Stranded
import TabletopDice.Proofs.PassCount
import TabletopDice.Proofs.Budget
import TabletopDice.Proofs.Bookings
import TabletopDice.Proofs.Range
import TabletopDice.Proofs.Guarded
import TabletopDice.Proofs.Interchange
import TabletopDice.Proofs.Lengths
import TabletopDice.Proofs.Totals
import TabletopDice.Proofs.Uniformity
import TabletopDice.Proofs.OneByOne
import TabletopDice.Proofs.Failures
import TabletopDice.Proofs.RedexFaults
import TabletopDice.Proofs.Refusals
import TabletopDice.Proofs.LeftmostMatch
import TabletopDice.Proofs.AtRest
import TabletopDice.Proofs.Playback
import TabletopDice.Proofs.DiceText
import TabletopDice.Proofs.LeftmostGroup
import TabletopDice.Proofs.Tiling
import TabletopDice.Proofs.Repetitions
