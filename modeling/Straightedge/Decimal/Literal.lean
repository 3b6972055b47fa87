/-! # Decimal literals

Numbers written in digits: at least one digit around an optional point, then an optional exponent.

* **`Exponent.split`**: an exponent at the front of a text, taken only with a digit of its own.
* **`Literal`**: the digits of a number, and its value as coefficient and exponent.
* **`Literal.split`**: the longest literal at the front of a text. -/

namespace Straightedge.Decimal

/-- The natural number that digits denote. -/
def digitsValue (digits : List Char) : Nat :=
  digits.foldl (fun n c => 10 * n + (c.toNat - '0'.toNat)) 0

/-- An optional sign at the front of a text, and what follows it. -/
def splitSign : List Char → Option Char × List Char
  | '+' :: rest => (some '+', rest)
  | '-' :: rest => (some '-', rest)
  | rest => (none, rest)

/-- The exponent of a literal: an optional sign and digits. -/
structure Exponent where
  /-- The sign, if written. -/
  sign : Option Char
  /-- The digits. -/
  digits : List Char

namespace Exponent

/-- The value of an exponent. -/
def value (e : Exponent) : Int :=
  if e.sign = some '-' then -(digitsValue e.digits : Int) else digitsValue e.digits

/-- An exponent with its mark, as a literal spells it. -/
def text (e : Exponent) : List Char := 'e' :: (e.sign.toList ++ e.digits)

/-- The exponent at the front of a text and what follows it. Without a digit there is none, and
nothing is taken. -/
def split : List Char → Option Exponent × List Char
  | c :: rest =>
    if c = 'e' ∨ c = 'E' then
      let (sign, after) := splitSign rest
      match after.takeWhile Char.isDigit with
      | [] => (none, c :: rest)
      | d :: ds => (some ⟨sign, d :: ds⟩, after.dropWhile Char.isDigit)
    else (none, c :: rest)
  | [] => (none, [])

end Exponent

/-- A number in digits. -/
structure Literal where
  /-- Digits before the point. -/
  whole : List Char
  /-- Digits after the point; `none` without a point. -/
  fraction : Option (List Char)
  /-- The exponent, if written. -/
  exponent : Option Exponent

namespace Literal

/-- All digits of the mantissa. -/
def digits (l : Literal) : List Char := l.whole ++ l.fraction.getD []

/-- A literal denotes a number iff its mantissa has a digit. -/
def isNumber (l : Literal) : Bool := !l.digits.isEmpty

/-- The mantissa without its point. -/
def coefficient (l : Literal) : Nat := digitsValue l.digits

/-- The power of ten that goes with the coefficient. -/
def scale (l : Literal) : Int :=
  (l.exponent.map Exponent.value).getD 0 - (l.fraction.getD []).length

/-- The literal as written, with a small exponent mark. -/
def text (l : Literal) : List Char :=
  l.whole ++ (l.fraction.map ('.' :: ·)).getD [] ++ (l.exponent.map Exponent.text).getD []

/-- The fraction at the front of a text, if a point stands there, and what follows. -/
def splitFraction : List Char → Option (List Char) × List Char
  | '.' :: rest => (some (rest.takeWhile Char.isDigit), rest.dropWhile Char.isDigit)
  | rest => (none, rest)

/-- The longest literal at the front of a text, and what follows it. -/
def split (cs : List Char) : Literal × List Char :=
  let (fraction, afterFraction) := splitFraction (cs.dropWhile Char.isDigit)
  let (exponent, rest) := Exponent.split afterFraction
  (⟨cs.takeWhile Char.isDigit, fraction, exponent⟩, rest)

/-! ## What follows a literal is never longer than the text -/

theorem length_dropWhile_le (p : Char → Bool) (cs : List Char) :
    (cs.dropWhile p).length ≤ cs.length :=
  (List.dropWhile_sublist p).length_le

theorem length_splitFraction_le (cs : List Char) :
    (splitFraction cs).2.length ≤ cs.length := by
  unfold splitFraction
  split
  · have := length_dropWhile_le Char.isDigit (by assumption)
    simp only [List.length_cons]
    omega
  · exact Nat.le_refl _

end Literal

theorem length_splitSign_le (cs : List Char) : (splitSign cs).2.length ≤ cs.length := by
  unfold splitSign
  split <;> simp

theorem Exponent.length_split_le (cs : List Char) : (Exponent.split cs).2.length ≤ cs.length := by
  unfold Exponent.split
  split
  · rename_i c rest
    split
    · have h := length_splitSign_le rest
      split
      rename_i sign after heq
      simp only [heq] at h
      split
      · exact Nat.le_refl _
      · have := Literal.length_dropWhile_le Char.isDigit after
        simp only [List.length_cons]
        omega
    · exact Nat.le_refl _
  · exact Nat.le_refl _

theorem Literal.length_split_le (cs : List Char) :
    (Literal.split cs).2.length ≤ (cs.dropWhile Char.isDigit).length := by
  have h₁ := Literal.length_splitFraction_le (cs.dropWhile Char.isDigit)
  have h₂ := Exponent.length_split_le (Literal.splitFraction (cs.dropWhile Char.isDigit)).2
  simp only [Literal.split]
  omega

end Straightedge.Decimal
