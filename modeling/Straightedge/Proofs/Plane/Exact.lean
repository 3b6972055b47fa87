import Mathlib.Analysis.SpecialFunctions.Complex.Arg
import Mathlib.Algebra.Order.Round
import Straightedge.Decimal.Literal
import Straightedge.Plane.Tolerance

/-! # Exact arithmetic

The real numbers as scalars. Over them every construction means what it says: nothing is rounded,
nothing overflows, and comparisons are those of an ordered field.

* **`Exact.instScalar`**: the instance.
* **`Exact.lt_iff`**, **`Exact.le_iff`**: comparisons as propositions.
* **`Exact.smaller_eq`**, **`Exact.larger_eq`**: extrema.
* **`Exact.same_iff`**: when two positions count as one.
* **`Exact.decimals`**: real numbers in writing, if they are decimals. -/

namespace Straightedge.Exact

open Classical in
/-- Real numbers with their own arithmetic and functions. -/
noncomputable instance instScalar : Scalar ℝ where
  ofNat := fun n => n
  ofDecimal := fun m e => m * 10 ^ e
  lt := fun x y => decide (x < y)
  le := fun x y => decide (x ≤ y)
  eq := fun x y => decide (x = y)
  isFinite := fun _ => true
  abs := fun x => |x|
  sqrt := Real.sqrt
  sin := Real.sin
  cos := Real.cos
  tan := Real.tan
  atan2 := fun y x => Complex.arg ⟨x, y⟩
  pi := Real.pi
  tau := 2 * Real.pi
  radiansPerDegree := Real.pi / 180
  degreesPerRadian := 180 / Real.pi
  toCount? := fun x => if x = ⌊x⌋₊ then some ⌊x⌋₊ else none

@[simp] theorem lt_iff {x y : ℝ} : Scalar.lt x y = true ↔ x < y := decide_eq_true_iff

@[simp] theorem le_iff {x y : ℝ} : Scalar.le x y = true ↔ x ≤ y := decide_eq_true_iff

@[simp] theorem eq_iff {x y : ℝ} : Scalar.eq x y = true ↔ x = y := decide_eq_true_iff

/-- What is not below or equal lies above. -/
theorem le_eq_false_iff {x y : ℝ} : Scalar.le y x = false ↔ x < y := by
  rw [← Bool.not_eq_true, le_iff, not_le]

/-- What is not below is above or equal. -/
theorem lt_eq_false_iff {x y : ℝ} : Scalar.lt y x = false ↔ x ≤ y := by
  rw [← Bool.not_eq_true, lt_iff, not_lt]

theorem ofDecimal_eq (m : ℕ) (e : ℤ) : (Scalar.ofDecimal m e : ℝ) = m * 10 ^ e := rfl

theorem ofNat_eq (n : ℕ) : (Scalar.ofNat n : ℝ) = n := rfl

theorem zero_eq : (Scalar.zero : ℝ) = 0 := Nat.cast_zero

theorem abs_eq (x : ℝ) : Scalar.abs x = |x| := rfl

theorem sqrt_eq (x : ℝ) : Scalar.sqrt x = √x := rfl

/-- Every number equals itself, so the smaller of two numbers is their minimum. -/
theorem smaller_eq (x y : ℝ) : Scalar.smaller x y = min x y := by
  have hy : Scalar.eq y y = true := eq_iff.2 rfl
  rw [Scalar.smaller, hy, Bool.not_true, Bool.or_false]
  by_cases h : x < y
  · rw [if_pos (lt_iff.2 h), min_eq_left h.le]
  · rw [if_neg (fun hlt => h (lt_iff.1 hlt)), min_eq_right (not_lt.1 h)]

/-- The larger of two numbers is their maximum. -/
theorem larger_eq (x y : ℝ) : Scalar.larger x y = max x y := by
  have hy : Scalar.eq y y = true := eq_iff.2 rfl
  rw [Scalar.larger, hy, Bool.not_true, Bool.or_false]
  by_cases h : y < x
  · rw [if_pos (lt_iff.2 h), max_eq_left h.le]
  · rw [if_neg (fun hlt => h (lt_iff.1 hlt)), max_eq_right (not_lt.1 h)]

/-- One part in a billion. -/
theorem coincidence_standard : (Tolerance.standard : Tolerance ℝ).coincidence = 10 ^ (-9 : ℤ) := by
  show ((1 : ℕ) : ℝ) * 10 ^ (-9 : ℤ) = _
  rw [Nat.cast_one, one_mul]

theorem coincidence_standard_eq_div :
    (Tolerance.standard : Tolerance ℝ).coincidence = 1 / 10 ^ 9 := by
  rw [coincidence_standard]
  norm_num

/-- Two positions count as one if they differ by less than the tolerance on either axis. -/
theorem same_iff {tol : Tolerance ℝ} {p q : Coord ℝ} :
    tol.same p q = true ↔ |p.x - q.x| < tol.coincidence ∧ |p.y - q.y| < tol.coincidence := by
  rw [Tolerance.same, Tolerance.negligible, Tolerance.negligible, Bool.and_eq_true, lt_iff, lt_iff,
    abs_eq, abs_eq]

/-- A position counts as itself if the tolerance is positive. -/
theorem same_self {tol : Tolerance ℝ} (h : 0 < tol.coincidence) (p : Coord ℝ) :
    tol.same p p = true := by
  rw [same_iff, sub_self, sub_self, abs_zero]
  exact ⟨h, h⟩

/-- Two positions count as one in either order. -/
theorem same_comm (tol : Tolerance ℝ) (p q : Coord ℝ) : tol.same p q = tol.same q p := by
  rw [Bool.eq_iff_iff, same_iff, same_iff, abs_sub_comm, abs_sub_comm p.y]

/-! ## Real numbers in writing -/

/-- The number a text denotes: an optional sign and a decimal. -/
noncomputable def readDecimal? (cs : List Char) : Option ℝ :=
  let (sign, unsigned) := Decimal.splitSign cs
  match Decimal.Literal.split unsigned with
  | (literal, []) =>
    let size : ℝ := Scalar.ofDecimal literal.coefficient literal.scale
    if literal.isNumber then some (if sign = some '-' then -size else size) else none
  | _ => none

open Classical in
/-- A text that denotes a number, if there is one. -/
noncomputable def spelling? (x : ℝ) : Option String :=
  if h : ∃ cs, readDecimal? cs = some x then some (String.ofList h.choose) else none

/-- Decimals as the texts of real numbers. -/
@[reducible]
noncomputable def decimals : Numeral ℝ where
  plain := fun x => (spelling? x).getD ""
  twoPlaces := fun x => (spelling? (round (x * 100) / 100)).getD ""
  data? := spelling?
  read? := readDecimal?

end Straightedge.Exact
