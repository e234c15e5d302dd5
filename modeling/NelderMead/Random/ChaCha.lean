import NelderMead.Random.Words

/-!
# The ChaCha generator with eight rounds

The generator hands out the output of the ChaCha block function in counter order, two 32-bit words
at a time.  It is described by its key and its position alone: word `i` of the stream is half a
pair of block `i / 8`, whatever was drawn before.

* `ChaCha8` — key and position.
* `ChaCha8.ofSeed` — expands a 64-bit seed to a key.
* `ChaCha8.block` — the sixteen words of a block.
-/

namespace NelderMead.Random

/-- A ChaCha generator with eight rounds, stream number zero. -/
structure ChaCha8 where
  key : Vector UInt32 8
  /-- How many 64-bit words were drawn. -/
  position : Nat
  deriving DecidableEq

namespace ChaCha8

/-! ## Seeding -/

/-- `x` rotated right by `r < 32` places. -/
def rotateRight (x : UInt32) (r : UInt32) : UInt32 :=
  (x >>> r) ||| (x <<< ((32 - r) % 32))

/-- `x` rotated left by `r < 32` places. -/
def rotateLeft (x : UInt32) (r : UInt32) : UInt32 := rotateRight x ((32 - r) % 32)

/-- The state behind `state` in the linear congruential sequence that expands seeds. -/
def seedStep (state : UInt64) : UInt64 :=
  state * 6364136223846793005 + 11634580027462260723

/-- The 32-bit word that a state of that sequence stands for: its high bits, mixed by a shift and
rotated by the topmost five. -/
def seedWord (state : UInt64) : UInt32 :=
  rotateRight (((state >>> 18) ^^^ state) >>> 27).toUInt32 (state >>> 59).toUInt32

/-- The states `1, 2, …` steps behind `seed`. -/
def seedStates (seed : UInt64) : Nat → UInt64
  | 0 => seedStep seed
  | n + 1 => seedStep (seedStates seed n)

/-- **The generator of a seed**, with all of its stream ahead. -/
def ofSeed (seed : UInt64) : ChaCha8 :=
  ⟨Vector.ofFn fun i => seedWord (seedStates seed i.val), 0⟩

/-! ## The block function -/

/-- The sixteen words that the rounds work on. -/
abbrev State := Vector UInt32 16

/-- One quarter round on the words at `a`, `b`, `c` and `d`. -/
def quarterRound (a b c d : Fin 16) (s : State) : State :=
  let add (x y : Fin 16) (s : State) : State := s.set x.val (s.get x + s.get y)
  let mix (x y : Fin 16) (r : UInt32) (s : State) : State :=
    s.set x.val (rotateLeft (s.get x ^^^ s.get y) r)
  let s := mix d a 16 (add a b s)
  let s := mix b c 12 (add c d s)
  let s := mix d a 8 (add a b s)
  mix b c 7 (add c d s)

/-- A round on the columns and a round on the diagonals. -/
def doubleRound (s : State) : State :=
  let s := quarterRound 0 4 8 12 s
  let s := quarterRound 1 5 9 13 s
  let s := quarterRound 2 6 10 14 s
  let s := quarterRound 3 7 11 15 s
  let s := quarterRound 0 5 10 15 s
  let s := quarterRound 1 6 11 12 s
  let s := quarterRound 2 7 8 13 s
  quarterRound 3 4 9 14 s

/-- The four constants, the key, the 64-bit counter with its low half first, and stream number
zero. -/
def initialState (key : Vector UInt32 8) (counter : UInt64) : State :=
  #v[0x61707865, 0x3320646e, 0x79622d32, 0x6b206574,
    key.get 0, key.get 1, key.get 2, key.get 3, key.get 4, key.get 5, key.get 6, key.get 7,
    counter.toUInt32, (counter >>> 32).toUInt32, 0, 0]

/-- **The block function**: four double rounds, and the initial state added to their result. -/
def block (key : Vector UInt32 8) (counter : UInt64) : State :=
  let start := initialState key counter
  let mixed := doubleRound (doubleRound (doubleRound (doubleRound start)))
  mixed.zipWith (· + ·) start

/-- Word `i` of the stream: two neighbours of block `i / 8`, the low half first. -/
def word (key : Vector UInt32 8) (i : Nat) : UInt64 :=
  let words := block key (UInt64.ofNat (i / 8))
  let low : Fin 16 := ⟨2 * (i % 8), by omega⟩
  let high : Fin 16 := ⟨2 * (i % 8) + 1, by omega⟩
  (words.get low).toUInt64 ||| ((words.get high).toUInt64 <<< 32)

instance : WordSource ChaCha8 where
  next g := (word g.key g.position, { g with position := g.position + 1 })

end ChaCha8

end NelderMead.Random
