/-! # Rounding a quotient

A quotient of natural numbers is rounded to the nearest natural number; what happens half-way is
the caller's choice.

* **`Tie`**: the choice half-way.
* **`roundQuotient`**: the nearest natural number to `num / den`. -/

namespace Straightedge.Decimal

/-- What becomes of a value half-way between two neighbours. -/
inductive Tie
  /-- The even neighbour. -/
  | toEven
  /-- The upper neighbour. -/
  | up
  deriving DecidableEq, Repr

/-- The neighbour chosen half-way between `q` and `q + 1`. -/
def Tie.choose : Tie → Nat → Nat
  | .toEven, q => q + q % 2
  | .up, q => q + 1

/-- The natural number nearest to `num / den`. -/
def roundQuotient (tie : Tie) (num den : Nat) : Nat :=
  match compare (2 * (num % den)) den with
  | .lt => num / den
  | .eq => tie.choose (num / den)
  | .gt => num / den + 1

end Straightedge.Decimal
