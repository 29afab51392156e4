import TabletopDice.Roller.Sampling

/-!
# ChaCha with twelve rounds

A generator of random words: the ChaCha permutation with twelve rounds on a 256-bit key, a 64-bit block counter
that starts at zero, and the stream number zero. A block gives sixteen 32-bit lanes, and two lanes, the low one
first, are a word.

The state is a square of four rows. A round mixes the four columns at once, row against row; to mix the
diagonals, the rows are turned until the diagonals stand as columns.
-/

namespace TabletopDice.ChaCha

/-- Four 32-bit lanes. -/
structure Row where
  a : UInt32
  b : UInt32
  c : UInt32
  d : UInt32
  deriving DecidableEq, Repr

namespace Row

/-- Combines two rows lane by lane. -/
def zipWith (f : UInt32 → UInt32 → UInt32) (x y : Row) : Row := ⟨f x.a y.a, f x.b y.b, f x.c y.c, f x.d y.d⟩

instance : Add Row := ⟨zipWith (· + ·)⟩
instance : XorOp Row := ⟨zipWith (· ^^^ ·)⟩

/-- Rotates the bits of each lane to the left. -/
def rotate (bits : UInt32) (x : Row) : Row :=
  let lane (v : UInt32) : UInt32 := (v <<< bits) ||| (v >>> (32 - bits))
  ⟨lane x.a, lane x.b, lane x.c, lane x.d⟩

/-- Moves each lane one place to the left, the first to the end. -/
def turn (x : Row) : Row := ⟨x.b, x.c, x.d, x.a⟩

/-- The two words of a row. -/
def words (x : Row) : List UInt64 :=
  let word (low high : UInt32) : UInt64 := low.toUInt64 ||| (high.toUInt64 <<< 32)
  [word x.a x.b, word x.c x.d]

end Row

/-- The sixteen lanes of a block, by rows. -/
structure Square where
  top : Row
  upper : Row
  lower : Row
  bottom : Row
  deriving DecidableEq, Repr

namespace Square

/-- Mixes each column. -/
def mixColumns (s : Square) : Square :=
  let top := s.top + s.upper
  let bottom := (s.bottom ^^^ top).rotate 16
  let lower := s.lower + bottom
  let upper := (s.upper ^^^ lower).rotate 12
  let top := top + upper
  let bottom := (bottom ^^^ top).rotate 8
  let lower := lower + bottom
  let upper := (upper ^^^ lower).rotate 7
  ⟨top, upper, lower, bottom⟩

/-- Two rounds: one on the columns and one on the diagonals. -/
def doubleRound (s : Square) : Square :=
  let s := s.mixColumns
  let s := mixColumns ⟨s.top, s.upper.turn, s.lower.turn.turn, s.bottom.turn.turn.turn⟩
  ⟨s.top, s.upper.turn.turn.turn, s.lower.turn.turn, s.bottom.turn⟩

/-- Twelve rounds, and the first state added to the last. -/
def block (s : Square) : Square :=
  let mixed := Nat.repeat doubleRound 6 s
  ⟨mixed.top + s.top, mixed.upper + s.upper, mixed.lower + s.lower, mixed.bottom + s.bottom⟩

/-- The eight words of a block. -/
def words (s : Square) : List UInt64 := s.top.words ++ s.upper.words ++ s.lower.words ++ s.bottom.words

end Square

/-- The constants of the top row: `expand 32-byte k` in ASCII, four bytes a lane. -/
def constants : Row := ⟨0x61707865, 0x3320646e, 0x79622d32, 0x6b206574⟩

/-- A generator: the two rows of its key, the number of the next block, and the words not yet given of the last. -/
structure Generator where
  upper : Row
  lower : Row
  counter : UInt64 := 0
  pending : List UInt64 := []
  deriving DecidableEq, Repr

namespace Generator

/-- The words of the next block. -/
def nextBlock (g : Generator) : List UInt64 :=
  let bottom : Row := ⟨g.counter.toUInt32, (g.counter >>> 32).toUInt32, 0, 0⟩
  (Square.block ⟨constants, g.upper, g.lower, bottom⟩).words

/-- The next word. -/
def next (g : Generator) : UInt64 × Generator :=
  match g.pending with
  | word :: rest => (word, { g with pending := rest })
  | [] =>
    match g.nextBlock with
    | word :: rest => (word, { g with counter := g.counter + 1, pending := rest })
    | [] => (0, g)

/-- The counter comes round after `2 ^ 64` blocks of eight words, and with it the words. -/
instance : WordSource Generator where
  next := next
  horizon g := g.pending.length + 8 * UInt64.size

/-! ## Keys from a number -/

/-- The next state of the key sequence, a linear congruential one. -/
def advance (state : UInt64) : UInt64 := state * 6364136223846793005 + 11634580027462260723

/-- The lane of a state: some of its high bits, rotated to the right by its highest five. -/
def keyLane (state : UInt64) : UInt32 :=
  let lane := (((state >>> 18) ^^^ state) >>> 27).toUInt32
  let bits := (state >>> 59).toUInt32
  (lane >>> bits) ||| (lane <<< (32 - bits))

/-- Four lanes of the key, and the state behind them. -/
def keyRow (state : UInt64) : Row × UInt64 :=
  let a := advance state
  let b := advance a
  let c := advance b
  let d := advance c
  (⟨keyLane a, keyLane b, keyLane c, keyLane d⟩, d)

/-- The generator with the key that a number expands to. -/
def ofSeed (seed : UInt64) : Generator :=
  match keyRow seed with
  | (upper, state) => { upper, lower := (keyRow state).1 }

end Generator
end TabletopDice.ChaCha
