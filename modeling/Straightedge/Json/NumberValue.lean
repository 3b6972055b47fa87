import Straightedge.Json.Document
import Straightedge.Scalar

/-! # The values of JSON numbers

A number is read as a significand of at most 64 bits, scaled by a power of ten in steps that are each
rounded once. Digits beyond the significand count as places, not as digits.

* **`Significand`**: the digits that are kept.
* **`NumberToken.count?`**: the whole number that is written.
* **`NumberToken.scalar?`**: the scalar that is written, unless it is too large. -/

namespace Straightedge

/-! ## Significands -/

/-- The largest significand. -/
def maxSignificand : Nat := Nat.pow 2 64 - 1

/-- Leading digits of a number. -/
structure Significand where
  /-- What they denote. -/
  value : Nat
  /-- How many digits of the part read last were kept. -/
  kept : Nat

/-- Takes digits into a significand until one would exceed the bound; that digit and all after it are
left out. -/
def Significand.take (value : Nat) : List Char → Significand
  | [] => ⟨value, 0⟩
  | d :: digits =>
    let next := 10 * value + Decimal.digitsValue [d]
    if next ≤ maxSignificand then
      let rest := take next digits
      ⟨rest.value, rest.kept + 1⟩
    else ⟨value, 0⟩

/-! ## Scaling -/

/-- The largest exponent of a power of ten that is used at once. -/
def maxPower : Nat := 308

variable {α : Type} [Scalar α]

/-- A power of ten. -/
def powerOfTen (e : Nat) : α := Scalar.ofDecimal 1 e

/-- A number times a power of ten; `none` if the result is not finite. -/
def scaleUp? (x : α) (e : Nat) : Option α :=
  if e ≤ maxPower then
    let scaled := x * powerOfTen e
    if Scalar.isFinite scaled then some scaled else none
  else if Scalar.eq x Scalar.zero then some x
  else none

/-- A number divided by a power of ten, by the largest power at a time. -/
def scaleDown (x : α) (e : Nat) : α :=
  if e ≤ maxPower then x / powerOfTen e
  else if Scalar.eq x Scalar.zero then x
  else scaleDown (x / powerOfTen maxPower) (e - maxPower)
termination_by e
decreasing_by
  have : 0 < maxPower := by decide
  omega

/-- A number times a power of ten with any exponent; `none` if the result is too large. -/
def scale? (x : α) : Int → Option α
  | .ofNat e => scaleUp? x e
  | .negSucc e => some (scaleDown x (e + 1))

/-! ## Values -/

namespace NumberToken

/-- The whole number that is written: no sign, fraction or exponent, and no more than 64 bits. -/
def count? (t : NumberToken) : Option Nat :=
  match t.negative, t.literal with
  | false, ⟨whole, none, none⟩ =>
    let n := Decimal.digitsValue whole
    if n ≤ maxSignificand then some n else none
  | _, _ => none

/-- The significand of a number, and the exponent that goes with it. -/
def significand (t : NumberToken) : Nat × Int :=
  let l := t.literal
  let whole := Significand.take 0 l.whole
  let all := Significand.take whole.value (l.fraction.getD [])
  (all.value,
    (l.whole.length - whole.kept : Nat) - (all.kept : Int)
      + (l.exponent.map Decimal.Exponent.value).getD 0)

/-- The scalar that is written; `none` if it is too large. -/
def scalar? (t : NumberToken) : Option α := do
  let (value, exponent) := t.significand
  let x ← scale? (Scalar.ofDecimal value 0) exponent
  return if t.negative then -x else x

end NumberToken

end Straightedge
