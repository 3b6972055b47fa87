import Straightedge.Scalar
import Straightedge.Decimal.Style
import Straightedge.Decimal.Literal

/-! # Binary64 numbers

The 64-bit floating-point numbers as scalars, and their texts.

* **`Float.toCount?`**: the count a number stands for.
* **`text`**: the shortest decimal in a given style.
* **`twoPlaces`**: the exact value rounded to two decimals.
* **`read?`**: the number a text denotes.
* **`instScalar`**, **`instNumeral`**: the instances over which scripts run. -/

namespace Straightedge.Binary64

open Float.Model

/-! ## Decimal input -/

/-- The number nearest to `m · 10 ^ e`. -/
def ofDecimal (m : Nat) (e : Int) : Float :=
  Float.ofScientific m (e < 0) e.natAbs

/-- The number a literal denotes. -/
def ofLiteral (l : Decimal.Literal) : Float := ofDecimal l.coefficient l.scale

/-- Positive infinity. -/
def infinity : Float := Float.ofModel (pack (.infinity .positive))

/-- The value that is not a number. -/
def notANumber : Float := Float.ofModel (pack .notANumber)

/-- An unsigned number: a literal that denotes one and ends with the text, or a word for infinity or
for "not a number" in any mix of small and capital letters. -/
def readUnsigned? (cs : List Char) : Option Float :=
  match Decimal.Literal.split cs with
  | (literal, []) => if literal.isNumber then some (ofLiteral literal) else none
  | _ =>
    match (String.ofList (cs.map Char.toLower)) with
    | "inf" => some infinity
    | "infinity" => some infinity
    | "nan" => some notANumber
    | _ => none

/-- The number a text denotes: an optional sign and an unsigned number, and nothing else. -/
def read? (cs : List Char) : Option Float :=
  match Decimal.splitSign cs with
  | (some '-', rest) => (readUnsigned? rest).map Float.neg
  | (_, rest) => readUnsigned? rest

/-! ## Decimal output -/

/-- The sign as it is written. -/
def signText : UnpackedFloat.Sign → String
  | .positive => ""
  | .negative => "-"

/-- The mantissa that starts a binade: the number below it is only half as far as the one above. -/
def firstMantissa : Nat := Nat.pow 2 52

/-- Exponent of the least positive number. -/
def leastExponent : Int := -1074

/-- A finite number in the given style, or the word for one that is not finite. -/
def text (style : Decimal.Style) (x : Float) : String :=
  match x.toModel.unpack with
  | .notANumber => "NaN"
  | .infinity sign => signText sign ++ "inf"
  | .zero sign => signText sign ++ style.zero
  | .finite sign m q _ =>
    let narrow := m = firstMantissa ∧ leastExponent < q
    let (coefficient, exponent) := Decimal.shortest style.tie m q narrow
    signText sign ++ style.layout coefficient exponent

/-- Numbers in texts for readers: always positional, whole numbers without a point. -/
def readable : Decimal.Style where
  positional := fun _ => true
  fraction := false
  tie := .up

/-- Numbers in data files: positional from `0.00001` to below `10 ^ 16`, always with a fraction or an
exponent. -/
def dataStyle : Decimal.Style where
  positional := fun k => -5 ≤ k ∧ k ≤ 15
  fraction := true
  tie := .toEven

/-- The exact value rounded to two decimals, a tie going to the even neighbour; the sign stays. -/
def twoPlaces (x : Float) : String :=
  match x.toModel.unpack with
  | .notANumber => "NaN"
  | .infinity sign => signText sign ++ "inf"
  | .zero sign => signText sign ++ Decimal.fixedPlaces 2 0 1
  | .finite sign m q _ =>
    signText sign ++ Decimal.fixedPlaces 2 (m * Nat.pow 2 q.toNat) (Nat.pow 2 (-q).toNat)

/-! ## Counts -/

/-- The largest count. -/
def maxCount : Nat := Nat.pow 2 64 - 1

/-- The count a number stands for: `none` unless it is finite, whole and not negative; what exceeds
the largest count becomes the largest count. -/
def toCount? (x : Float) : Option Nat :=
  match x.toModel.unpack with
  | .zero _ => some 0
  | .finite .positive m q _ =>
    let den := Nat.pow 2 (-q).toNat
    if m % den = 0 then some (min (m / den * Nat.pow 2 q.toNat) maxCount) else none
  | _ => none

/-! ## Instances -/

instance instScalar : Scalar Float where
  ofNat := Float.ofNat
  ofDecimal := ofDecimal
  lt := Float.lt
  le := Float.le
  eq := Float.beq
  isFinite := Float.isFinite
  abs := Float.abs
  sqrt := Float.sqrt
  sin := Float.sin
  cos := Float.cos
  tan := Float.tan
  atan2 := Float.atan2
  pi := ofDecimal 3141592653589793 (-15)
  tau := ofDecimal 6283185307179586 (-15)
  radiansPerDegree := ofDecimal 17453292519943295 (-18)
  degreesPerRadian := ofDecimal 5729577951308232 (-14)
  toCount? := toCount?

instance instNumeral : Numeral Float where
  plain := text readable
  twoPlaces := twoPlaces
  data? := fun x => if x.isFinite then some (text dataStyle x) else none
  read? := read?

end Straightedge.Binary64
