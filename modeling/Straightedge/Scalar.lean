/-! # Scalars

The numbers that figures are computed with. Every construction is written once over an arbitrary
`Scalar`: run on binary64 it gives the values that scripts see, and over an ordered field the same
definitions speak of exact arithmetic.

* **`Scalar`**: arithmetic, comparisons as Booleans, and the elementary functions.
* **`Numeral`**: the texts of a number.
* **`Scalar.smaller`**, **`Scalar.larger`**: extrema that pass over a value that is not a number. -/

namespace Straightedge

/-- Numbers with the arithmetic of plane constructions. Comparisons are Booleans because a number
format may hold a value that is neither below, equal to nor above another. -/
class Scalar (α : Type) extends Add α, Sub α, Mul α, Div α, Neg α where
  /-- The number that stands for a natural number. -/
  ofNat : Nat → α
  /-- `ofDecimal m e` is the number nearest to `m · 10 ^ e`. -/
  ofDecimal : Nat → Int → α
  /-- Strictly below. -/
  lt : α → α → Bool
  /-- Below or equal. -/
  le : α → α → Bool
  /-- Numerically equal; a value that is not a number equals nothing. -/
  eq : α → α → Bool
  /-- Neither infinite nor "not a number". -/
  isFinite : α → Bool
  /-- Absolute value. -/
  abs : α → α
  /-- Square root. -/
  sqrt : α → α
  /-- Sine of an angle in radians. -/
  sin : α → α
  /-- Cosine of an angle in radians. -/
  cos : α → α
  /-- Tangent of an angle in radians. -/
  tan : α → α
  /-- `atan2 y x` is the angle in radians of the direction `(x, y)`. -/
  atan2 : α → α → α
  /-- Half a turn in radians. -/
  pi : α
  /-- A full turn in radians. -/
  tau : α
  /-- One degree in radians. -/
  radiansPerDegree : α
  /-- One radian in degrees. -/
  degreesPerRadian : α
  /-- The count a number stands for: `none` unless it is finite, whole and not negative. -/
  toCount? : α → Option Nat

/-- Numbers with their texts. -/
class Numeral (α : Type) where
  /-- The fewest digits that read back, never with an exponent. -/
  plain : α → String
  /-- Rounded to two decimals. -/
  twoPlaces : α → String
  /-- The text in a data file; `none` for a value that data files cannot hold. -/
  data? : α → Option String
  /-- The number that a text denotes, if it denotes one. -/
  read? : List Char → Option α

namespace Scalar

variable {α : Type} [Scalar α]

/-- Zero. -/
def zero : α := ofNat 0

/-- The smaller of two numbers: `b` unless `a` lies below it or `b` is not a number. -/
def smaller (a b : α) : α := if lt a b || !eq b b then a else b

/-- The larger of two numbers: `b` unless `a` lies above it or `b` is not a number. -/
def larger (a b : α) : α := if lt b a || !eq b b then a else b

/-- An angle in degrees, in radians. -/
def radians (degrees : α) : α := degrees * radiansPerDegree

/-- An angle in radians, in degrees. -/
def degrees (radians : α) : α := radians * degreesPerRadian

end Scalar

/-- A number as tooltips and measurements show it: its shortest digits, and `0` for either zero. -/
def Numeral.shown {α : Type} [Scalar α] [Numeral α] (x : α) : String :=
  if Scalar.eq x Scalar.zero then "0" else plain x

end Straightedge
