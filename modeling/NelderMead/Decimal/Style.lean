import NelderMead.Decimal.Shortest

/-!
# Numbers in texts

Numbers are written with the digits of their shortest decimal.  What remains to be chosen is the
layout, and a `Style` is such a choice.

* `Style.message` — the style of error messages, of the log and of bounds: always positional, and
  integers without a fraction.
* `Style.record` — the style of the descriptions of values: integers end in `.0`, and numbers far
  from one have an exponent.
* `Style.write` — the text of a number in a style.
-/

namespace NelderMead.Decimal

/-- **A layout of numbers.**  A decimal exponent between `least` and `greatest` is written
positionally, a limit that is absent excludes nothing, and all other exponents are written after an
`e`. -/
structure Style where
  /-- What follows a number that is written positionally and shows no fraction. -/
  integerMark : String
  least : Option Int
  greatest : Option Int

namespace Style

/-- Positional throughout; `2`, `0.0000001`, `-0`. -/
def message : Style := ⟨"", none, none⟩

/-- Positional from `10 ^ -4` to below `10 ^ 16`; `2.0`, `1e-5`, `-0.0`. -/
def record : Style := ⟨".0", some (-4), some 15⟩

/-- Whether a number with this decimal exponent is written positionally. -/
def isPositional (s : Style) (exponent : Int) : Bool :=
  s.least.all (fun l => decide (l ≤ exponent)) && s.greatest.all (fun g => decide (exponent ≤ g))

/-- `n` zeros. -/
def zeros (n : Nat) : String := String.ofList (List.replicate n '0')

/-- The digits with the point where the exponent puts it. -/
def positional (s : Style) (d : Numeral) : String :=
  let digits := String.ofList d.digits
  let count := d.digits.length
  if d.exponent < 0 then "0." ++ zeros (-d.exponent - 1).toNat ++ digits
  else
    let whole := d.exponent.toNat + 1
    if count ≤ whole then digits ++ zeros (whole - count) ++ s.integerMark
    else String.ofList (d.digits.take whole) ++ "." ++ String.ofList (d.digits.drop whole)

/-- The first digit, the others behind a point, and the exponent. -/
def scientific (d : Numeral) : String :=
  let first := String.ofList (d.digits.take 1)
  let rest := String.ofList (d.digits.drop 1)
  first ++ (if rest.isEmpty then "" else "." ++ rest) ++ "e" ++ toString d.exponent

/-- The text of a number that is positive and finite. -/
def magnitude (s : Style) (x : Float) : String :=
  let d := (Binary.ofFloat x).shortest
  if s.isPositional d.exponent then s.positional d else scientific d

/-- **The text of a number.**  Zero keeps its sign, and what is not a number has none. -/
def write (s : Style) (x : Float) : String :=
  if x.isNaN then "NaN"
  else
    let sign := if x.toBits < 0x8000000000000000 then "" else "-"
    let text :=
      if x.isInf then "inf"
      else if x == 0.0 then "0" ++ s.integerMark
      else s.magnitude x
    sign ++ text

end Style

end NelderMead.Decimal
