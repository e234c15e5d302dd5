/-!
# The shortest decimal of a binary64 number

A positive finite number is `significand · 2 ^ exponent`.  The reals that round to it form an
interval; its ends belong to it exactly when the significand is even, because ties go to even.
`Binary.shortest` finds the decimal with the fewest digits in that interval.

For `1, 2, … 17` digits the two neighbours of the number on the decimal grid of that many digits are
tested, in exact arithmetic on natural numbers.  The first grid with a neighbour in the interval is
taken, since a grid that has any point in the interval has one of the two.  Of two neighbours in the
interval the nearer wins, and of two equally near the upper.

* `Binary.ofFloat` — significand and exponent of a positive finite number.
* `Gap` — the number and its interval over one common denominator.
* `Binary.shortest` — the digits, and the exponent of the first of them.
-/

namespace NelderMead.Decimal

/-! ## Significand and exponent -/

/-- The number `significand · 2 ^ exponent`. -/
structure Binary where
  significand : Nat
  exponent : Int
  deriving DecidableEq

/-- The significand of the least number of each binade but the lowest, which is the weight of the
bit above the fraction. -/
def Binary.leastNormal : Nat := 0x10000000000000

/-- The exponent of the numbers below the normal range. -/
def Binary.leastExponent : Int := -1074

/-- Reads the magnitude of a finite number off its bits. -/
def Binary.ofFloat (x : Float) : Binary :=
  let bits := x.toBits.toNat
  let fraction := bits % leastNormal
  let biased := bits / leastNormal % 0x800
  if biased = 0 then ⟨fraction, leastExponent⟩
  else ⟨fraction + leastNormal, Int.ofNat biased - 1 + leastExponent⟩

/-! ## The interval that rounds to a number -/

/-- **A number and its interval** over one denominator: the number is `value / den`, and the reals
from `low / den` to `high / den` round to it, the ends counted when `closed`. -/
structure Gap where
  low : Nat
  value : Nat
  high : Nat
  den : Nat
  closed : Bool

/-- The neighbours above and below lie one unit away, except that below the least number of a
binade the unit is half as large; half of each distance rounds to the number. -/
def Binary.gap (b : Binary) : Gap :=
  let below := if b.significand = leastNormal ∧ leastExponent < b.exponent then 1 else 2
  let num := Nat.pow 2 (b.exponent - 2).toNat
  ⟨(4 * b.significand - below) * num, 4 * b.significand * num, (4 * b.significand + 2) * num,
    Nat.pow 2 (2 - b.exponent).toNat, b.significand % 2 == 0⟩

/-- Multiplies number and interval by `10 ^ s`. -/
def Gap.scale (g : Gap) (s : Int) : Gap :=
  let up := Nat.pow 10 s.toNat
  { g with
    low := g.low * up, value := g.value * up, high := g.high * up,
    den := g.den * Nat.pow 10 (-s).toNat }

/-- Whether the integer `k` lies in the interval. -/
def Gap.holds (g : Gap) (k : Nat) : Bool :=
  if g.closed then decide (g.low ≤ k * g.den) && decide (k * g.den ≤ g.high)
  else decide (g.low < k * g.den) && decide (k * g.den < g.high)

/-- The integer neighbour of the number that lies in the interval: the nearer of two, the upper of
two equally near. -/
def Gap.neighbour? (g : Gap) : Option Nat :=
  let down := g.value / g.den
  let up := down + 1
  let downIsNearer := decide (2 * (g.value - down * g.den) < g.den)
  match g.holds down, g.holds up with
  | true, true => some (if downIsNearer then down else up)
  | true, false => some down
  | false, true => some up
  | false, false => none

/-! ## The digits -/

/-- How many decimal digits `n` has. -/
def digitCount (n : Nat) : Nat := (Nat.toDigits 10 n).length

/-- The `e` with `10 ^ (e - 1) ≤ value / den < 10 ^ e`. -/
def Gap.magnitude (g : Gap) : Int :=
  if g.den ≤ g.value then digitCount (g.value / g.den)
  else
    let shift := digitCount g.den - digitCount g.value
    if g.den ≤ g.value * Nat.pow 10 shift then 1 - Int.ofNat shift else - Int.ofNat shift

/-- A numeral: its digits, the last of them not zero, with the decimal point after the first digit,
times `10 ^ exponent`. -/
structure Numeral where
  digits : List Char
  exponent : Int
  deriving DecidableEq

/-- The numeral `k · 10 ^ unit`. -/
def Numeral.ofGrid (k : Nat) (unit : Int) : Numeral :=
  let digits := Nat.toDigits 10 k
  ⟨(digits.reverse.dropWhile (· == '0')).reverse, Int.ofNat digits.length - 1 + unit⟩

/-- **The shortest decimal** that rounds to the number.  Seventeen digits always suffice, so the
value for the case that no grid serves is never used. -/
def Binary.shortest (b : Binary) : Numeral :=
  let gap := b.gap
  let magnitude := gap.magnitude
  let found := (List.range 17).findSome? fun i =>
    let unit := magnitude - Int.ofNat (i + 1)
    (gap.scale (-unit)).neighbour?.map (Numeral.ofGrid · unit)
  found.getD ⟨['0'], 0⟩

end NelderMead.Decimal
