import Mathlib.Tactic.LinearCombination
import Straightedge.Plane.Line
import Straightedge.Proofs.Plane.Shoelace

/-! # Intersections of lines

The common point of two lines is computed along the first line only. That it lies on the second one
as well, and that nothing changes when the lines or the positions on a line change places, follows
from its being the only common point: whether there is one is decided by lengths and an angle, which
belong to both lines alike.

* **`Line.Passes`**: a line passes through a position.
* **`Line.Short`**, **`Line.Parallel`**: lines that are refused.
* **`Line.eq_of_passes`**: two lines that are not parallel have one common point at most.
* **`Line.exists_intersection`**: lines that are not refused have one.
* **`Line.intersection_congr`**: lines alike have the same intersection.
* **`Line.intersection_common_point`**: what an intersection is, and when there is none. -/

namespace Straightedge.Line

variable {tol : Tolerance ℝ} {a b c d p q u v : Coord ℝ}

/-- **The line through `a` in the direction of `u` passes through `p`.** -/
def Passes (a u p : Coord ℝ) : Prop := (p - a).cross u = 0

/-- One of two directions has no length to speak of. -/
def Short (tol : Tolerance ℝ) (u v : Coord ℝ) : Prop :=
  u.norm < tol.coincidence ∨ v.norm < tol.coincidence

/-- **Two directions make no angle to speak of.** -/
def Parallel (tol : Tolerance ℝ) (u v : Coord ℝ) : Prop :=
  |u.cross v| < tol.parallel * u.norm * v.norm

/-! ## Common points -/

/-- **Two lines in different directions have one common point at most.** -/
theorem eq_of_passes (hcross : u.cross v ≠ 0) (hp : Passes a u p ∧ Passes c v p)
    (hq : Passes a u q ∧ Passes c v q) : q = p := by
  obtain ⟨hpu, hpv⟩ := hp
  obtain ⟨hqu, hqv⟩ := hq
  simp only [Passes, Exact.cross_eq, Exact.sub_eq] at hcross hpu hpv hqu hqv
  ext
  · refine mul_right_cancel₀ hcross ?_
    linear_combination u.x * (hqv - hpv) - v.x * (hqu - hpu)
  · refine mul_right_cancel₀ hcross ?_
    linear_combination u.y * (hqv - hpv) - v.y * (hqu - hpu)

/-- A line is given by its positions in either order. -/
theorem passes_swap : Passes b (a - b) p ↔ Passes a (b - a) p := by
  have hneg : (p - b).cross (a - b) = -(p - a).cross (b - a) := by
    simp only [Exact.cross_eq, Exact.sub_eq]
    ring
  rw [Passes, Passes, hneg, neg_eq_zero]

/-! ## Lengths -/

theorem normSquared_nonneg (v : Coord ℝ) : 0 ≤ v.normSquared :=
  add_nonneg (mul_self_nonneg _) (mul_self_nonneg _)

/-- A distance, by its square. -/
theorem distance_eq_of_square {length : ℝ} (hlength : 0 ≤ length)
    (h : (b.x - a.x) * (b.x - a.x) + (b.y - a.y) * (b.y - a.y) = length * length) :
    distance a b = length :=
  (congrArg Real.sqrt h).trans (Real.sqrt_mul_self hlength)

/-- Positions at no distance are one. -/
theorem eq_of_normSquared_sub_eq_zero (h : (b - a).normSquared = 0) : a = b := by
  change (b.x - a.x) * (b.x - a.x) + (b.y - a.y) * (b.y - a.y) = 0 at h
  ext <;> nlinarith [mul_self_nonneg (b.x - a.x), mul_self_nonneg (b.y - a.y)]

theorem eq_of_norm_sub_eq_zero (h : (b - a).norm = 0) : a = b :=
  eq_of_normSquared_sub_eq_zero ((Real.sqrt_eq_zero (normSquared_nonneg _)).1 h)

theorem norm_sub_comm (a b : Coord ℝ) : (a - b).norm = (b - a).norm := by
  simp only [Coord.norm, Coord.normSquared, Exact.sub_eq]
  congr 1
  ring

/-! ## Lines that are refused -/

theorem short_comm : Short tol v u ↔ Short tol u v := or_comm

theorem parallel_comm : Parallel tol v u ↔ Parallel tol u v := by
  have hneg : v.cross u = -u.cross v := by
    simp only [Exact.cross_eq]
    ring
  rw [Parallel, Parallel, hneg, abs_neg, mul_right_comm]

theorem short_swap : Short tol (a - b) v ↔ Short tol (b - a) v := by
  rw [Short, Short, norm_sub_comm]

theorem parallel_swap : Parallel tol (a - b) v ↔ Parallel tol (b - a) v := by
  have hneg : (a - b).cross v = -(b - a).cross v := by
    simp only [Exact.cross_eq, Exact.sub_eq]
    ring
  rw [Parallel, Parallel, hneg, abs_neg, norm_sub_comm]

/-- Lines that are not short have lengths to divide by. -/
theorem norm_mul_norm_pos (hcoincidence : 0 < tol.coincidence) (hshort : ¬Short tol u v) :
    0 < u.norm * v.norm := by
  rw [Short, not_or, not_lt, not_lt] at hshort
  exact mul_pos (hcoincidence.trans_le hshort.1) (hcoincidence.trans_le hshort.2)

/-- Lines that are neither short nor parallel have an area to divide by. -/
theorem cross_ne_zero (hcoincidence : 0 < tol.coincidence) (hparallel : 0 < tol.parallel)
    (hshort : ¬Short tol u v) (hangle : ¬Parallel tol u v) : u.cross v ≠ 0 := by
  intro hzero
  rw [Parallel, hzero, abs_zero, mul_assoc] at hangle
  exact hangle (mul_pos hparallel (norm_mul_norm_pos hcoincidence hshort))

/-- The sine of an angle is compared without a quotient. -/
theorem sine_lt_iff (hcoincidence : 0 < tol.coincidence) (hshort : ¬Short tol u v) :
    Scalar.lt (Scalar.abs (u.cross v / (u.norm * v.norm))) tol.parallel = true ↔
      Parallel tol u v := by
  have hpos := norm_mul_norm_pos hcoincidence hshort
  rw [Exact.lt_iff, Exact.abs_eq, abs_div, abs_of_pos hpos, div_lt_iff₀ hpos, ← mul_assoc]
  rfl

theorem tiny_or_tiny_iff :
    (tol.tiny u.norm || tol.tiny v.norm) = true ↔ Short tol u v := by
  rw [Bool.or_eq_true, Tolerance.tiny, Tolerance.tiny, Exact.lt_iff, Exact.lt_iff]
  rfl

/-! ## What is found -/

/-- Short lines are refused. -/
theorem intersection_of_short (hshort : Short tol (b - a) (d - c)) :
    intersection tol a b c d = .error (.degenerateLine .zeroLength) :=
  if_pos (tiny_or_tiny_iff.2 hshort)

/-- So are parallel ones. -/
theorem intersection_of_parallel (hcoincidence : 0 < tol.coincidence)
    (hshort : ¬Short tol (b - a) (d - c)) (hangle : Parallel tol (b - a) (d - c)) :
    intersection tol a b c d = .error .parallelLines := by
  have htiny := mt tiny_or_tiny_iff.1 hshort
  rw [intersection, if_neg htiny]
  exact if_pos ((sine_lt_iff hcoincidence hshort).2 hangle)

/-- **Lines that are not refused have a common point**, and it is found. -/
theorem exists_intersection (hcoincidence : 0 < tol.coincidence) (hparallel : 0 < tol.parallel)
    (hshort : ¬Short tol (b - a) (d - c)) (hangle : ¬Parallel tol (b - a) (d - c)) :
    ∃ p, intersection tol a b c d = .ok p ∧ Passes a (b - a) p ∧ Passes c (d - c) p := by
  have htiny := mt tiny_or_tiny_iff.1 hshort
  have hcross := cross_ne_zero hcoincidence hparallel hshort hangle
  let t := (c - a).cross (d - c) / (b - a).cross (d - c)
  have ht : t * (b - a).cross (d - c) = (c - a).cross (d - c) := div_mul_cancel₀ _ hcross
  refine ⟨a + (b - a).scale t, ?_, ?_, ?_⟩
  · rw [intersection, if_neg htiny]
    exact if_neg (mt (sine_lt_iff hcoincidence hshort).1 hangle)
  · simp only [Passes, Exact.cross_eq, Coord.sub_x, Coord.sub_y, Coord.add_x, Coord.add_y,
      Coord.scale_x, Coord.scale_y]
    ring
  · simp only [Exact.cross_eq, Coord.sub_x, Coord.sub_y] at ht
    simp only [Passes, Exact.cross_eq, Coord.sub_x, Coord.sub_y, Coord.add_x, Coord.add_y,
      Coord.scale_x, Coord.scale_y]
    linear_combination ht

/-- **Lines alike have the same intersection**: those that are refused alike and have the same
positions in common. -/
theorem intersection_congr {a' b' c' d' : Coord ℝ} (hcoincidence : 0 < tol.coincidence)
    (hparallel : 0 < tol.parallel)
    (hshort : Short tol (b' - a') (d' - c') ↔ Short tol (b - a) (d - c))
    (hangle : Parallel tol (b' - a') (d' - c') ↔ Parallel tol (b - a) (d - c))
    (hpasses : ∀ p, Passes a (b - a) p ∧ Passes c (d - c) p →
      Passes a' (b' - a') p ∧ Passes c' (d' - c') p) :
    intersection tol a' b' c' d' = intersection tol a b c d := by
  by_cases h : Short tol (b - a) (d - c)
  · rw [intersection_of_short h, intersection_of_short (hshort.2 h)]
  · by_cases hpar : Parallel tol (b - a) (d - c)
    · rw [intersection_of_parallel hcoincidence h hpar,
        intersection_of_parallel hcoincidence (mt hshort.1 h) (hangle.2 hpar)]
    · obtain ⟨p, hp, hcommon⟩ := exists_intersection hcoincidence hparallel h hpar
      obtain ⟨p', hp', hcommon'⟩ := exists_intersection hcoincidence hparallel (mt hshort.1 h)
        (mt hangle.1 hpar)
      have hcross := cross_ne_zero hcoincidence hparallel (mt hshort.1 h) (mt hangle.1 hpar)
      rw [hp, hp', eq_of_passes hcross hcommon' (hpasses p hcommon)]

/-- The lines change places. -/
theorem intersection_comm (hcoincidence : 0 < tol.coincidence) (hparallel : 0 < tol.parallel)
    (a b c d : Coord ℝ) : intersection tol c d a b = intersection tol a b c d :=
  intersection_congr hcoincidence hparallel short_comm parallel_comm fun _ => And.symm

/-- The positions on the first line change places. -/
theorem intersection_swap (hcoincidence : 0 < tol.coincidence) (hparallel : 0 < tol.parallel)
    (a b c d : Coord ℝ) : intersection tol b a c d = intersection tol a b c d :=
  intersection_congr hcoincidence hparallel short_swap parallel_swap fun _ hp =>
    ⟨passes_swap.2 hp.1, hp.2⟩

/-- **What an intersection is, and when there is none.** In exact arithmetic with positive
tolerances, an intersection lies on both lines and is their only common point. There is none exactly
if one of the lines is too short, or else the angle between them is too small, and the error says
which. Nothing changes when the lines change places, or the positions on either of them do. -/
theorem intersection_common_point (hcoincidence : 0 < tol.coincidence)
    (hparallel : 0 < tol.parallel) (a b c d : Coord ℝ) :
    let u := b - a
    let v := d - c
    let short := u.norm < tol.coincidence ∨ v.norm < tol.coincidence
    let found := intersection tol a b c d
    (∀ p, found = .ok p → Passes a u p ∧ Passes c v p ∧
      ∀ q, Passes a u q → Passes c v q → q = p) ∧
    ((∃ reason, found = .error (.degenerateLine reason)) ↔ short) ∧
    (found = .error .parallelLines ↔
      ¬short ∧ |u.cross v| < tol.parallel * u.norm * v.norm) ∧
    (∀ e, found = .error e → (∃ reason, e = .degenerateLine reason) ∨ e = .parallelLines) ∧
    intersection tol c d a b = found ∧ intersection tol b a c d = found ∧
      intersection tol a b d c = found := by
  intro u v short found
  have hlast : intersection tol a b d c = found := by
    rw [intersection_comm hcoincidence hparallel, intersection_swap hcoincidence hparallel,
      intersection_comm hcoincidence hparallel]
  have hsymmetric := And.intro (intersection_comm hcoincidence hparallel a b c d)
    (And.intro (intersection_swap hcoincidence hparallel a b c d) hlast)
  by_cases h : short
  · have hfound : found = .error (.degenerateLine .zeroLength) := intersection_of_short h
    refine ⟨?_, ?_, ?_, ?_, hsymmetric⟩ <;> rw [hfound]
    · exact fun _ hp => nomatch hp
    · exact ⟨fun _ => h, fun _ => ⟨_, rfl⟩⟩
    · exact ⟨fun he => (nomatch he), fun he => absurd h he.1⟩
    · exact fun e he => .inl ⟨_, (Except.error.inj he).symm⟩
  · by_cases hangle : Parallel tol u v
    · have hfound : found = .error .parallelLines := intersection_of_parallel hcoincidence h hangle
      refine ⟨?_, ?_, ?_, ?_, hsymmetric⟩ <;> rw [hfound]
      · exact fun _ hp => nomatch hp
      · exact ⟨fun ⟨_, he⟩ => (nomatch he), fun he => absurd he h⟩
      · exact ⟨fun _ => ⟨h, hangle⟩, fun _ => rfl⟩
      · exact fun e he => .inr (Except.error.inj he).symm
    · obtain ⟨p, hfound, hcommon⟩ := exists_intersection hcoincidence hparallel h hangle
      have hcross := cross_ne_zero hcoincidence hparallel h hangle
      change found = .ok p at hfound
      refine ⟨?_, ?_, ?_, ?_, hsymmetric⟩ <;> rw [hfound]
      · intro p' hp'
        cases hp'
        exact ⟨hcommon.1, hcommon.2, fun q hq hq' => eq_of_passes hcross hcommon ⟨hq, hq'⟩⟩
      · exact ⟨fun ⟨_, he⟩ => (nomatch he), fun he => absurd he h⟩
      · exact ⟨fun he => (nomatch he), fun he => absurd he.2 hangle⟩
      · exact fun _ he => nomatch he

/-- An upright line meets a sloping one. -/
theorem intersection_common_point_of_upright :
    let tol : Tolerance ℝ := .standard
    let found := intersection tol ⟨3, -1⟩ ⟨3, 4⟩ ⟨-5, -1⟩ ⟨-1, 2⟩
    0 < tol.coincidence ∧ 0 < tol.parallel ∧ found = .ok ⟨3, 5⟩ := by
  intro tol found
  have hbillionth : (Scalar.ofDecimal 1 (-9) : ℝ) = 1 / 10 ^ 9 := by
    rw [Exact.ofDecimal_eq]
    norm_num
  have hpos : (0 : ℝ) < Scalar.ofDecimal 1 (-9) := by
    rw [hbillionth]
    norm_num
  obtain ⟨hmeets, hshort, hparallel, herror, -⟩ :=
    @intersection_common_point tol hpos hpos ⟨3, -1⟩ ⟨3, 4⟩ ⟨-5, -1⟩ ⟨-1, 2⟩
  have hlength {u : Coord ℝ} (hu : u.x * u.x + u.y * u.y = 5 * 5) : u.norm = 5 := by
    show √(u.x * u.x + u.y * u.y) = 5
    rw [hu, Real.sqrt_mul_self (by norm_num)]
  have hu : ((⟨3, 4⟩ : Coord ℝ) - ⟨3, -1⟩).norm = 5 :=
    hlength (by simp only [Exact.sub_eq]; norm_num)
  have hv : ((⟨-1, 2⟩ : Coord ℝ) - ⟨-5, -1⟩).norm = 5 :=
    hlength (by simp only [Exact.sub_eq]; norm_num)
  refine ⟨hpos, hpos, ?_⟩
  cases hfound : found with
  | error e =>
    rcases herror e hfound with ⟨reason, rfl⟩ | rfl
    · have htiny := hshort.1 ⟨reason, hfound⟩
      rw [hu, hv, or_self] at htiny
      change 5 < (Scalar.ofDecimal 1 (-9) : ℝ) at htiny
      rw [hbillionth] at htiny
      norm_num at htiny
    · have hangle := (hparallel.1 hfound).2
      rw [hu, hv, Exact.cross_eq] at hangle
      change |((3 : ℝ) - 3) * (2 - -1) - (4 - -1) * (-1 - -5)| <
        (Scalar.ofDecimal 1 (-9) : ℝ) * 5 * 5 at hangle
      rw [hbillionth] at hangle
      norm_num at hangle
  | ok p =>
    have hp : (⟨3, 5⟩ : Coord ℝ) = p := by
      refine (hmeets p hfound).2.2 ⟨3, 5⟩ ?_ ?_
      · show ((3 : ℝ) - 3) * (4 - -1) - (5 - -1) * (3 - 3) = 0
        norm_num
      · show ((3 : ℝ) - -5) * (2 - -1) - (5 - -1) * (-1 - -5) = 0
        norm_num
    rw [hp]

end Straightedge.Line
