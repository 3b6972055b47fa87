import Mathlib.Analysis.SpecialFunctions.Trigonometric.Bounds
import Straightedge.Plane.Sampling
import Straightedge.Proofs.Plane.Exact
import Straightedge.Proofs.Plane.Rings

/-! # Regular polygons

The corners of a regular polygon are listed once, and the first of them is to be repeated when the
polygon is drawn. It is not if the last corner coincides with the first. Then the last corner counts
as the repetition, and the polygon is a corner short.

* **`RegularPolygon`**: a regular polygon, with its corners by their numbers.
* **`RegularPolygon.isClosed_corners`**: the corners are a closed ring if the first and the last one
  coincide.
* **`RegularPolygon.side`**: the length of a side, in exact arithmetic.
* **`RegularPolygon.isClosed_corners_iff`**: what coincidence means for a side and its direction.
* **`RegularPolygon.not_isClosed_corners`**, **`RegularPolygon.isClosed_corners_of_side_lt`**: sides
  that are long enough, and sides that are too short.
* **`RegularPolygon.side_hexagon`**: the sides of a hexagon. -/

namespace Straightedge

/-- A regular polygon: its center, the distance of its corners from the center, the angle in radians
of the first corner, and how many corners there are. -/
structure RegularPolygon (α : Type) where
  /-- Center. -/
  center : Coord α
  /-- Distance of the corners from the center. -/
  radius : α
  /-- Angle of the first corner. -/
  start : α
  /-- Number of corners. -/
  count : Nat

namespace RegularPolygon

section

variable {α : Type} [Scalar α]

/-- A corner, as it is computed; the first one has the number zero. -/
def corner (g : RegularPolygon α) (k : Nat) : Coord α :=
  g.center + Coord.polar g.radius
    (g.start + Scalar.ofNat k * (Scalar.tau / Scalar.ofNat g.count))

/-- The corners of a regular polygon. -/
def corners (g : RegularPolygon α) : List (Coord α) :=
  Sampling.regularPolygon g.center g.radius g.start g.count

theorem corners_eq (g : RegularPolygon α) : g.corners = (List.range g.count).map g.corner := rfl

@[simp] theorem length_corners (g : RegularPolygon α) : g.corners.length = g.count :=
  Sampling.length_regularPolygon ..

/-- **The corners are a closed ring exactly if the first and the last one coincide.** -/
theorem isClosed_corners (tol : Tolerance α) {g : RegularPolygon α} (hg : 2 ≤ g.count) :
    Ring.isClosed tol g.corners = tol.same (g.corner 0) (g.corner (g.count - 1)) := by
  rw [corners_eq]
  exact Ring.isClosed_map_range tol g.corner hg

end

/-! ## Sides in exact arithmetic -/

/-- The length of a side. -/
noncomputable def side (g : RegularPolygon ℝ) : ℝ :=
  (g.radius + g.radius) * Real.sin (Real.pi / g.count)

/-- The direction across the last side, from the center. -/
noncomputable def middle (g : RegularPolygon ℝ) : ℝ := g.start - Real.pi / g.count

variable {g : RegularPolygon ℝ}

theorem corner_zero : g.corner 0 = g.center + Coord.polar g.radius g.start := by
  have hangle : g.start + Scalar.ofNat 0 * (Scalar.tau / Scalar.ofNat g.count) = g.start := by
    show g.start + ((0 : ℕ) : ℝ) * _ = g.start
    rw [Nat.cast_zero, zero_mul, add_zero]
  rw [corner, hangle]

/-- The last corner lies a step before the first one. -/
theorem corner_last (hg : 0 < g.count) :
    g.corner (g.count - 1) =
      g.center + Coord.polar g.radius (g.start - 2 * (Real.pi / g.count)) := by
  have hangle : g.start + Scalar.ofNat (g.count - 1) * (Scalar.tau / Scalar.ofNat g.count) =
      g.start - 2 * (Real.pi / g.count) + 2 * Real.pi := by
    show g.start + ((g.count - 1 : ℕ) : ℝ) * (2 * Real.pi / (g.count : ℝ)) = _
    rw [Nat.cast_sub hg, Nat.cast_one]
    have hne : (g.count : ℝ) ≠ 0 := Nat.cast_ne_zero.2 hg.ne'
    field_simp
    ring
  rw [corner, hangle]
  congr 1
  exact Coord.ext (congrArg (g.radius * ·) (Real.cos_add_two_pi _))
    (congrArg (g.radius * ·) (Real.sin_add_two_pi _))

/-- How far the first corner lies from the last one: a side, across its middle. -/
theorem corner_sub_corner (hg : 0 < g.count) :
    g.corner 0 - g.corner (g.count - 1) =
      ⟨-(g.side * Real.sin g.middle), g.side * Real.cos g.middle⟩ := by
  have hsum : (g.start + (g.start - 2 * (Real.pi / g.count))) / 2 = g.middle := by
    rw [middle]
    ring
  have hdifference : (g.start - (g.start - 2 * (Real.pi / g.count))) / 2 = Real.pi / g.count := by
    ring
  rw [corner_zero, corner_last hg]
  ext
  · show g.center.x + g.radius * Real.cos g.start -
      (g.center.x + g.radius * Real.cos (g.start - 2 * (Real.pi / g.count))) = _
    rw [add_sub_add_left_eq_sub, ← mul_sub, Real.cos_sub_cos, hsum, hdifference, side]
    ring
  · show g.center.y + g.radius * Real.sin g.start -
      (g.center.y + g.radius * Real.sin (g.start - 2 * (Real.pi / g.count))) = _
    rw [add_sub_add_left_eq_sub, ← mul_sub, Real.sin_sub_sin, hsum, hdifference, side]
    ring

/-- The sides of triangles and squares are longer than the radius. -/
theorem sqrt_two_mul_radius_le_side (hg : 3 ≤ g.count) (hfew : g.count ≤ 4)
    (hradius : 0 ≤ g.radius) : √2 * g.radius ≤ g.side := by
  have hcount : (0 : ℝ) < g.count := by exact_mod_cast (by omega : 0 < g.count)
  have hsin : √2 / 2 ≤ Real.sin (Real.pi / g.count) := by
    rw [← Real.sin_pi_div_four]
    refine Real.sin_le_sin_of_le_of_le_pi_div_two ?_ ?_ ?_
    · exact (neg_nonpos.2 (by positivity)).trans (by positivity)
    · exact div_le_div_of_nonneg_left Real.pi_pos.le two_pos
        (by exact_mod_cast (by omega : 2 ≤ g.count))
    · exact div_le_div_of_nonneg_left Real.pi_pos.le hcount (by exact_mod_cast hfew)
  calc √2 * g.radius = (g.radius + g.radius) * (√2 / 2) := by ring
    _ ≤ g.side := mul_le_mul_of_nonneg_left hsin (by positivity)

variable {tol : Tolerance ℝ}

/-- **The last corner counts as the first one, in exact arithmetic, exactly if a side at its
direction is negligible on both axes.** -/
theorem isClosed_corners_iff (hg : 2 ≤ g.count) :
    Ring.isClosed tol g.corners = true ↔
      |g.side * Real.sin g.middle| < tol.coincidence ∧
        |g.side * Real.cos g.middle| < tol.coincidence := by
  have hsub := corner_sub_corner (g := g) (by omega)
  have hx := congrArg Coord.x hsub
  have hy := congrArg Coord.y hsub
  change _ - _ = _ at hx hy
  rw [isClosed_corners tol hg, Exact.same_iff, hx, hy, abs_neg]

/-- **No corner is lost from a polygon whose sides are long enough**, at any direction. -/
theorem not_isClosed_corners (hg : 2 ≤ g.count) (hside : √2 * tol.coincidence ≤ g.side) :
    Ring.isClosed tol g.corners = false := by
  rw [← Bool.not_eq_true, isClosed_corners_iff hg]
  rintro ⟨hsin, hcos⟩
  have hpos : 0 < tol.coincidence := (abs_nonneg _).trans_lt hsin
  have hsquare : 2 * tol.coincidence ^ 2 ≤ g.side ^ 2 := by
    rw [← Real.sq_sqrt (show (0 : ℝ) ≤ 2 by norm_num), ← mul_pow]
    exact pow_le_pow_left₀ (by positivity) hside 2
  have hsin' := sq_lt_sq' (abs_lt.1 hsin).1 (abs_lt.1 hsin).2
  have hcos' := sq_lt_sq' (abs_lt.1 hcos).1 (abs_lt.1 hcos).2
  have hunit :
      (g.side * Real.sin g.middle) ^ 2 + (g.side * Real.cos g.middle) ^ 2 = g.side ^ 2 := by
    rw [mul_pow, mul_pow, ← mul_add, Real.sin_sq_add_cos_sq, mul_one]
  linarith

/-- **A corner is lost from a polygon whose sides are too short**, at every direction. -/
theorem isClosed_corners_of_side_lt (hg : 2 ≤ g.count) (hradius : 0 ≤ g.radius)
    (hside : g.side < tol.coincidence) : Ring.isClosed tol g.corners = true := by
  have hangle : Real.pi / g.count ≤ Real.pi :=
    div_le_self Real.pi_pos.le (by exact_mod_cast (by omega : 1 ≤ g.count))
  have hnonneg : 0 ≤ g.side := mul_nonneg (by positivity)
    (Real.sin_nonneg_of_nonneg_of_le_pi (by positivity) hangle)
  have hshort {x : ℝ} (hx : |x| ≤ 1) : |g.side * x| < tol.coincidence := by
    rw [abs_mul, abs_of_nonneg hnonneg]
    exact (mul_le_of_le_one_right hnonneg hx).trans_lt hside
  exact (isClosed_corners_iff hg).2 ⟨hshort (Real.abs_sin_le_one _), hshort (Real.abs_cos_le_one _)⟩

/-! ## Hexagons -/

/-- The hexagon around the origin with a corner on the horizontal axis. -/
def hexagon (r : ℝ) : RegularPolygon ℝ := ⟨⟨0, 0⟩, r, 0, 6⟩

/-- The sides of a hexagon are as long as its radius. -/
theorem side_hexagon (r : ℝ) : (hexagon r).side = r := by
  show (r + r) * Real.sin (Real.pi / (6 : ℕ)) = r
  rw [Nat.cast_ofNat, Real.sin_pi_div_six]
  ring

theorem middle_hexagon (r : ℝ) : (hexagon r).middle = -(Real.pi / 6) := by
  show 0 - Real.pi / (6 : ℕ) = _
  rw [zero_sub, Nat.cast_ofNat]

end RegularPolygon

end Straightedge
