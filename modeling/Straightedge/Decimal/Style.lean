import Straightedge.Decimal.Shortest

/-! # Styles of decimal numbers

How the digits of a number are laid out: positionally or with an exponent, with or without a
fraction for whole numbers.

* **`Style`**: the choices of one output format.
* **`Style.layout`**: the text of a coefficient and an exponent.
* **`fixedPlaces`**: the text of a quotient rounded to a number of decimals. -/

namespace Straightedge.Decimal

/-- The choices that fix the text of a positive decimal number. -/
structure Style where
  /-- Decimal exponents of the leading digit that are written positionally. -/
  positional : Int → Bool
  /-- Whether a whole number written positionally ends in `.0`. -/
  fraction : Bool
  /-- Which of two equally near shortest decimals is taken. -/
  tie : Tie

/-- Digits without the zeros at their end. -/
def trimZeros (digits : List Char) : List Char := (digits.reverse.dropWhile (· == '0')).reverse

/-- Digits placed around a decimal point, the leading one at decimal exponent `k`. -/
def positionalText (fraction : Bool) (digits : List Char) (k : Int) : List Char :=
  if k < 0 then '0' :: '.' :: (List.replicate (-k - 1).toNat '0' ++ digits)
  else
    let places := k.toNat + 1
    if digits.length ≤ places then
      digits ++ List.replicate (places - digits.length) '0' ++ (if fraction then ['.', '0'] else [])
    else digits.take places ++ '.' :: digits.drop places

/-- Digits with a point after the leading one, and the signed exponent `k`. -/
def exponentText (digits : List Char) (k : Int) : List Char :=
  let mantissa := match digits with
    | first :: second :: more => first :: '.' :: second :: more
    | short => short
  mantissa ++ 'e' :: (if k < 0 then '-' else '+') :: (Nat.repr k.natAbs).toList

/-- The text of the positive number `coefficient · 10 ^ exponent`. -/
def Style.layout (style : Style) (coefficient : Nat) (exponent : Int) : String :=
  let digits := (Nat.repr coefficient).toList
  let k := exponent + digits.length - 1
  String.ofList <|
    if style.positional k then positionalText style.fraction (trimZeros digits) k
    else exponentText (trimZeros digits) k

/-- The text of zero. -/
def Style.zero (style : Style) : String := if style.fraction then "0.0" else "0"

/-- The quotient `num / den` rounded to `places` decimals, a tie going to the even neighbour. -/
def fixedPlaces (places num den : Nat) : String :=
  let scaled := roundQuotient .toEven (num * Nat.pow 10 places) den
  let decimals := (Nat.repr (scaled % Nat.pow 10 places)).toList
  Nat.repr (scaled / Nat.pow 10 places) ++ "."
    ++ String.ofList (List.replicate (places - decimals.length) '0' ++ decimals)

end Straightedge.Decimal
