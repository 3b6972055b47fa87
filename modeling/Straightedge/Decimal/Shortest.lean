import Straightedge.Decimal.Rounding

/-! # Shortest decimal digits

A binary format stores `m · 2 ^ q`. Of all decimals that are closer to that number than to any
other number of the format, the shortest is wanted, and of several the nearest.

The decimals with `n` significant digits form a grid around the number. If a grid has a point in
the interval of values that round to the number, then one of the two neighbours of the number on
that grid lies in it. So the grids of 1, 2, … digits are tried in turn.

* **`Bracket`**: a positive number with the interval that rounds to it, over one denominator.
* **`Bracket.shortest`**: coefficient and exponent of its shortest decimal. -/

namespace Straightedge.Decimal

/-- A positive number and the interval of values that round to it, as numerators over one
denominator. -/
structure Bracket where
  /-- Numerator of the lower end. -/
  low : Nat
  /-- Numerator of the number itself. -/
  value : Nat
  /-- Numerator of the upper end. -/
  high : Nat
  /-- The common denominator. -/
  den : Nat
  /-- Whether the ends round to the number as well. -/
  closed : Bool

namespace Bracket

/-- The bracket of `m · 2 ^ q`. Its ends lie half-way to the neighbouring numbers; below the first
number of a binade the neighbour is only half as far (`narrow`). Ends round to an even `m`. -/
def ofBinary (m : Nat) (q : Int) (narrow : Bool) : Bracket :=
  let unit := Nat.pow 2 (q - 2).toNat
  { low := (4 * m - if narrow then 1 else 2) * unit
    value := 4 * m * unit
    high := (4 * m + 2) * unit
    den := Nat.pow 2 (2 - q).toNat
    closed := m % 2 = 0 }

/-- The bracket measured in units of `10 ^ s`. -/
def scaled (b : Bracket) (s : Int) : Bracket :=
  let up := Nat.pow 10 (-s).toNat
  { low := b.low * up
    value := b.value * up
    high := b.high * up
    den := b.den * Nat.pow 10 s.toNat
    closed := b.closed }

/-- Whether the whole number `d` lies in the bracket. -/
def holds (b : Bracket) (d : Nat) : Bool :=
  if b.closed then b.low ≤ d * b.den && d * b.den ≤ b.high
  else b.low < d * b.den && d * b.den < b.high

/-- The whole number in the bracket nearest to its value, if one of the value's two neighbours lies
in the bracket. -/
def whole? (tie : Tie) (b : Bracket) : Option Nat :=
  let d := b.value / b.den
  match b.holds d, b.holds (d + 1) with
  | true, true => some (roundQuotient tie b.value b.den)
  | true, false => some d
  | false, true => some (d + 1)
  | false, false => none

/-- The first of the `n` grids with steps `10 ^ s`, `10 ^ (s - 1)`, … that has a point in the bracket,
as coefficient and exponent; without any, the point below the value on the grid after them. -/
def search (tie : Tie) (b : Bracket) : Nat → Int → Nat × Int
  | 0, s => ((b.scaled s).value / (b.scaled s).den, s)
  | n + 1, s =>
    match (b.scaled s).whole? tie with
    | some d => (d, s)
    | none => search tie b n (s - 1)

/-- Decimal exponent of the leading digit of the value, found from the guess `k`. -/
def leadingExponent (b : Bracket) (k : Int) : Int :=
  if (b.scaled k).value < (b.scaled k).den then k - 1
  else if (b.scaled (k + 1)).den ≤ (b.scaled (k + 1)).value then k + 1
  else k

/-- Seventeen digits tell any two binary64 numbers apart. -/
def maxDigits : Nat := 17

/-- Coefficient and exponent of the shortest decimal of the number whose leading digit has decimal
exponent `k`. -/
def shortest (tie : Tie) (b : Bracket) (k : Int) : Nat × Int :=
  b.search tie maxDigits k

end Bracket

/-- Coefficient and exponent of the shortest decimal that rounds to `m · 2 ^ q`. -/
def shortest (tie : Tie) (m : Nat) (q : Int) (narrow : Bool) : Nat × Int :=
  let b := Bracket.ofBinary m q narrow
  -- `m · 2 ^ q` lies in `[2 ^ e, 2 ^ (e + 1))`, and 0.30103 is `log₁₀ 2` up to 5·10⁻⁹
  let e : Int := m.log2 + q
  b.shortest tie (b.leadingExponent (e * 30103 / 100000))

end Straightedge.Decimal
