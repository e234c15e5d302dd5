import NelderMead.Random.Words
import NelderMead.Random.Layers

/-!
# Standard normal numbers

A standard normal number is drawn by the layered rejection method.  One word picks a layer and a
place in it; a place inside the layer above is accepted at once, and any other needs a second look.
A look may reject the place, and then all begins again.

* `uniformSymmetric`, `uniformOpen`, `uniformHalfOpen` — words as numbers of an interval.
* `tail` — the numbers beyond the start of the tail.
* `candidate` — one place, accepted or not.
* `standardNormal` — the first place that is accepted.
* `standardNormals` — some draws in a row, and `advance`, the generator behind them.

The draws have no bound in principle.  `attempts` bounds them far beyond what any generator in use
needs, and a draw that gets so far takes what it has; so every draw ends, and every draw moves the
generator in a way that depends on the generator alone.
-/

namespace NelderMead.Random

variable {γ : Type} [WordSource γ]

/-! ## Words as numbers -/

/-- The topmost 52 bits as a number from `-1` to below `1`. -/
def uniformSymmetric (word : UInt64) : Float :=
  Float.ofBits ((word >>> 12) ||| 0x4000000000000000) - 3.0

/-- The topmost 52 bits as a number strictly between `0` and `1`. -/
def uniformOpen (word : UInt64) : Float :=
  Float.ofBits ((word >>> 12) ||| 0x3ff0000000000000) - Float.ofBits 0x3fefffffffffffff

/-- The topmost 53 bits as a number from `0` to below `1`. -/
def uniformHalfOpen (word : UInt64) : Float :=
  (word >>> 11).toFloat * Float.ofBits 0x3ca0000000000000

/-! ## One attempt -/

/-- How often a draw may begin again. -/
def attempts : Nat := 0x4000000000000000

/-- Draws pairs of numbers until one falls under the density of the tail, and returns the distance
from the start of the tail, negated. -/
def tailOffset : Nat → γ → Float × γ
  | 0, g => (0.0, g)
  | left + 1, g =>
    let (a, g) := WordSource.next g
    let (b, g) := WordSource.next g
    let x := Float.log (uniformOpen a) / Layer.tailStart
    let y := Float.log (uniformOpen b)
    if -2.0 * y < x * x then tailOffset left g else (x, g)

/-- A number of the tail on the side of the sign of `u`. -/
def tail (u : Float) (g : γ) : Float × γ :=
  let (x, g) := tailOffset attempts g
  (if u < 0.0 then x - Layer.tailStart else Layer.tailStart - x, g)

/-- What became of one attempt. -/
inductive Candidate where
  | accepted (z : Float)
  | rejected (z : Float)

/-- **One attempt.**  The lowest eight bits of a word pick the layer and the others a place in it.
A place under the layer above is inside the density.  In the lowest layer any other place stands
for the tail; elsewhere a second word decides whether the place lies under the density. -/
def candidate (g : γ) : Candidate × γ :=
  let (word, g) := WordSource.next g
  let layer := word.toNat % 256
  let lower : Fin 257 := ⟨layer, by omega⟩
  let upper : Fin 257 := ⟨layer + 1, by omega⟩
  let u := uniformSymmetric word
  let x := u * Layer.edge lower
  if x.abs < Layer.edge upper then (.accepted x, g)
  else if layer = 0 then
    let (z, g) := tail u g
    (.accepted z, g)
  else
    let (word, g) := WordSource.next g
    let height := Layer.density upper
      + (Layer.density lower - Layer.density upper) * uniformHalfOpen word
    if height < Float.exp (-x * x / 2.0) then (.accepted x, g) else (.rejected x, g)

/-! ## Draws -/

/-- The first accepted number of at most `left + 1` attempts, or what the last of them had. -/
def firstAccepted : Nat → γ → Float × γ
  | left, g =>
    match candidate g with
    | (.accepted z, g) => (z, g)
    | (.rejected z, g) =>
      match left with
      | 0 => (z, g)
      | left + 1 => firstAccepted left g

/-- **A standard normal number** and the generator behind it. -/
def standardNormal (g : γ) : Float × γ := firstAccepted attempts g

/-- `n` standard normal numbers in the order drawn, and the generator behind them. -/
def standardNormals : Nat → γ → List Float × γ
  | 0, g => ([], g)
  | n + 1, g =>
    let (z, g) := standardNormal g
    let (zs, g) := standardNormals n g
    (z :: zs, g)

/-- The generator behind `n` draws. -/
def advance (n : Nat) (g : γ) : γ := (standardNormals n g).2

theorem advance_zero (g : γ) : advance 0 g = g := rfl

theorem advance_succ (n : Nat) (g : γ) : advance (n + 1) g = advance n (standardNormal g).2 := rfl

/-- Drawing `m + n` numbers is drawing `m` and then `n`. -/
theorem advance_add (m n : Nat) (g : γ) : advance (m + n) g = advance n (advance m g) := by
  induction m generalizing g with
  | zero => rw [Nat.zero_add, advance_zero]
  | succ m ih => rw [Nat.succ_add, advance_succ, advance_succ, ih]

theorem length_standardNormals (n : Nat) (g : γ) : (standardNormals n g).1.length = n := by
  induction n generalizing g with
  | zero => rfl
  | succ n ih => simp [standardNormals, ih]

end NelderMead.Random
