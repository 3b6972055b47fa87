import Straightedge.Proofs.Plane.Exact
import Straightedge.Proofs.Plane.Rings
import Straightedge.Proofs.Plane.RoundingErrors
import Straightedge.Plane.Sampling

/-! # Ovals

A round curve is sampled over a full turn, both ends included. In exact arithmetic the last sample
is the first. In binary64 arithmetic a full turn is a number close to one, where the sine is not
zero, so the ends of a curve lie apart by an amount that grows with the curve: they coincide on
curves of moderate size, and do not on large ones.

* **`Oval`**: a circle or an ellipse, with its points by their angles.
* **`Oval.isClosed_samples`**: the samples are a closed ring if the first and the last one coincide.
* **`Binary64.turning`**, **`Binary64.Turns`**: binary64 numbers with other functions for cosine and
  sine, and what these have to satisfy.
* **`Oval.isClosed_samples_iff`**: in binary64 arithmetic the ends lie at zero and at a full turn.
* **`Oval.Moderate.same_ends`**: the ends of an oval of moderate size coincide. -/

namespace Straightedge

open Sampling (closedSegments share)

/-- A circle or an ellipse: its center, its semi-axes, and by how many degrees these are turned. -/
structure Oval (α : Type) where
  /-- Center. -/
  center : Coord α
  /-- First semi-axis. -/
  rx : α
  /-- Second semi-axis. -/
  ry : α
  /-- Angle in degrees by which the first semi-axis is turned out of the horizontal. -/
  degrees : α

namespace Oval

variable {α : Type} [Scalar α]

/-- The point at an angle in radians, as it is computed. -/
def point (o : Oval α) (t : α) : Coord α :=
  let turn := Scalar.radians o.degrees
  let x := o.rx * Scalar.cos t
  let y := o.ry * Scalar.sin t
  o.center + ⟨x * Scalar.cos turn - y * Scalar.sin turn, x * Scalar.sin turn + y * Scalar.cos turn⟩

/-- A point is determined by the cosine and the sine of its angle. -/
theorem point_congr {o : Oval α} {t t' : α} (hcos : Scalar.cos t = Scalar.cos t')
    (hsin : Scalar.sin t = Scalar.sin t') : o.point t = o.point t' := by
  rw [point, point, hcos, hsin]

/-- The samples of an oval. -/
def samples (o : Oval α) (segments : Nat) : List (Coord α) :=
  Sampling.ellipse o.center o.rx o.ry o.degrees segments

/-- The samples are points at equal steps over a full turn. -/
theorem samples_eq (o : Oval α) (segments : Nat) :
    o.samples segments = (List.range (closedSegments segments + 1)).map fun i =>
      o.point (share i (closedSegments segments) * Scalar.tau) := rfl

@[simp] theorem length_samples (o : Oval α) (segments : Nat) :
    (o.samples segments).length = closedSegments segments + 1 := Sampling.length_ellipse ..

/-- **The samples are a closed ring exactly if the first and the last one coincide.** -/
theorem isClosed_samples (tol : Tolerance α) (o : Oval α) (segments : Nat) :
    let n := closedSegments segments
    Ring.isClosed tol (o.samples segments) =
      tol.same (o.point (share 0 n * Scalar.tau)) (o.point (share n n * Scalar.tau)) := by
  intro n
  have hmany : 3 ≤ n := Nat.le_max_right _ _
  rw [samples_eq]
  exact Ring.isClosed_map_range tol (n := n + 1) (fun i => o.point (share i n * Scalar.tau))
    (by omega)

/-- **In exact arithmetic the samples of an oval are a closed ring**, whatever its size. -/
theorem isClosed_samples_of_exact {tol : Tolerance ℝ} (htol : 0 < tol.coincidence) (o : Oval ℝ)
    (segments : Nat) : Ring.isClosed tol (o.samples segments) = true := by
  have hn : ((closedSegments segments : ℕ) : ℝ) ≠ 0 :=
    Nat.cast_ne_zero.2 (lt_of_lt_of_le (by decide) (Nat.le_max_right _ _)).ne'
  have hfirst : (share 0 (closedSegments segments) * Scalar.tau : ℝ) = 0 := by
    show ((0 : ℕ) : ℝ) / _ * _ = 0
    rw [Nat.cast_zero, zero_div, zero_mul]
  have hlast : (share (closedSegments segments) (closedSegments segments) * Scalar.tau : ℝ) =
      2 * Real.pi := by
    show ((closedSegments segments : ℕ) : ℝ) / ((closedSegments segments : ℕ) : ℝ) * _ = _
    rw [div_self hn]
    exact one_mul _
  have hends : o.point 0 = o.point (2 * Real.pi) :=
    point_congr (Real.cos_zero.trans Real.cos_two_pi.symm)
      (Real.sin_zero.trans Real.sin_two_pi.symm)
  rw [isClosed_samples, hfirst, hlast, hends]
  exact Exact.same_self htol _

end Oval

/-! ## Turns in binary64 arithmetic -/

namespace Binary64

/-- Binary64 numbers with the given functions as cosine and sine. -/
@[reducible]
def turning (cos sin : Float → Float) : Scalar Float := { instScalar with cos := cos, sin := sin }

/-- **What ovals need of cosine and sine.** They are at most one. At a full turn, which is rounded,
the cosine is that at zero, and the sine is as small as it is there. -/
structure Turns (cos sin : Float → Float) : Prop where
  cos_atMost : ∀ x : Float, x.isFinite = true → AtMost .one (cos x)
  sin_atMost : ∀ x : Float, x.isFinite = true → AtMost .one (sin x)
  cos_tau : cos Scalar.tau = cos (Scalar.ofNat 0)
  sin_zero : AtMost (.power (-51)) (sin (Scalar.ofNat 0))
  sin_tau : AtMost (.power (-51)) (sin Scalar.tau)

/-- The cosine of the thirds of a full turn, in binary64 arithmetic; one elsewhere. -/
def thirdCos (t : Float) : Float :=
  if t = share 1 3 * Scalar.tau then -0.4999999999999998
  else if t = share 2 3 * Scalar.tau then -0.5000000000000004
  else 1

/-- The sine of the thirds of a full turn, in binary64 arithmetic; zero elsewhere. -/
def thirdSin (t : Float) : Float :=
  if t = share 1 3 * Scalar.tau then 0.8660254037844387
  else if t = share 2 3 * Scalar.tau then -0.8660254037844384
  else if t = Scalar.tau then -2.4492935982947064e-16
  else 0

/-- Cosine and sine of the thirds of a full turn suit ovals. -/
theorem turns_third : Turns thirdCos thirdSin where
  cos_atMost := by
    intro t _
    unfold thirdCos
    split_ifs
    · exact @Within.finite .one .negative 9007199254740988 (-54) (by decide) (by decide) (by decide)
        (by norm_num [Bound.value_one])
    · exact @Within.finite .one .negative 4503599627370500 (-53) (by decide) (by decide) (by decide)
        (by norm_num [Bound.value_one])
    · exact atMost_one
  sin_atMost := by
    intro t _
    unfold thirdSin
    split_ifs
    · exact @Within.finite .one .positive 7800463371553963 (-53) (by decide) (by decide) (by decide)
        (by norm_num [Bound.value_one])
    · exact @Within.finite .one .negative 7800463371553960 (-53) (by decide) (by decide) (by decide)
        (by norm_num [Bound.value_one])
    · exact @Within.finite .one .negative 4967757600021511 (-104) (by decide) (by decide)
        (by decide) (by norm_num [Bound.value_one])
    · exact .zero .positive
  cos_tau := by decide +kernel
  sin_zero := by
    have hzero : thirdSin (Scalar.ofNat 0) = 0 := by decide +kernel
    rw [hzero]
    exact .zero .positive
  sin_tau := by
    have htau : thirdSin Scalar.tau = -2.4492935982947064e-16 := by decide +kernel
    rw [htau]
    refine @Within.finite (.power (-51)) .negative 4967757600021511 (-104) (by decide) (by decide)
      (by decide) ?_
    rw [Bound.value_power]
    norm_num

/-- The first of several samples lies at the angle zero. -/
theorem share_zero_mul_tau {n : Nat} (hpos : 0 < n) (hn : n ≤ 2 ^ 14) :
    (share 0 n * Scalar.tau : Float) = Scalar.ofNat 0 := by
  rw [share, zero_div_of_pos (value_ofNat_pos hpos hn)]
  decide +kernel

/-- The last of several samples lies at a full turn. -/
theorem share_self_mul_tau {n : Nat} (hpos : 0 < n) (hn : n ≤ 2 ^ 14) :
    (share n n * Scalar.tau : Float) = Scalar.tau := by
  rw [share, div_self_of_pos (value_ofNat_pos hpos hn)]
  decide +kernel

theorem atMost_radiansPerDegree : AtMost .one (Scalar.radiansPerDegree : Float) := by
  refine @Within.finite .one .positive 5030569068109113 (-58) (by decide) (by decide) (by decide) ?_
  norm_num [Bound.value_one]

/-- A finite angle in degrees is finite in radians. -/
theorem isFinite_radians {degrees : Float} (h : degrees.isFinite = true) :
    (Scalar.radians degrees).isFinite = true := by
  refine (AtMost.mul (c := .largest) (atMost_largest h) atMost_radiansPerDegree ?_).isFinite
  rw [Bound.value_one, mul_one]

end Binary64

namespace Oval

open Binary64

variable {cos sin : Float → Float}

/-- **The samples of an oval are a closed ring, in binary64 arithmetic, exactly if its points at the
angle zero and at a full turn coincide.** -/
theorem isClosed_samples_iff (tol : Tolerance Float) (o : Oval Float) {segments : Nat}
    (hsegments : segments ≤ 10000) :
    letI := turning cos sin
    Ring.isClosed tol (o.samples segments) =
      tol.same (o.point (Scalar.ofNat 0)) (o.point Scalar.tau) := by
  let _ := turning cos sin
  have hpos : 0 < closedSegments segments := lt_of_lt_of_le (by decide) (Nat.le_max_right _ _)
  have hn : closedSegments segments ≤ 2 ^ 14 := max_le (by omega) (by decide)
  rw [isClosed_samples]
  congr 2
  · exact share_zero_mul_tau hpos hn
  · exact share_self_mul_tau hpos hn

/-- **An oval of moderate size**: its center is not too far out, its semi-axes are not too long. -/
structure Moderate (o : Oval Float) : Prop where
  center_x : AtMost (.power 19) o.center.x
  center_y : AtMost (.power 19) o.center.y
  rx : AtMost (.power 18) o.rx
  ry : AtMost (.power 18) o.ry

/-- Numbers that are close to one number differ negligibly. -/
theorem negligible_of_near {x y : Float} {q : ℚ} (hx : x.isFinite = true) (hy : y.isFinite = true)
    (hxq : |value x - q| ≤ 2 ^ (-31 : ℤ)) (hyq : |value y - q| ≤ 2 ^ (-31 : ℤ)) :
    (Tolerance.standard : Tolerance Float).negligible (x - y) = true := by
  refine negligible_of_atMost (rounds_sub hx hy ?_).atMost
  rw [Bound.value_power, abs_le]
  rw [abs_le] at hxq hyq
  have hdouble : (2 : ℚ) ^ (-30 : ℤ) = 2 ^ (-31 : ℤ) + 2 ^ (-31 : ℤ) := by norm_num
  constructor
  · linarith
  · linarith

/-- A coordinate of a center together with one of a point is hardly moved with the point. -/
theorem near_center {center p sum : Float} (hcenter : AtMost (.power 19) center)
    (hsum : AtMost (.power 19) sum) (hnear : |value sum - value p| ≤ 2 ^ (-32 : ℤ)) :
    (center + sum).isFinite = true ∧
      |value (center + sum) - (value center + value p)| ≤ 2 ^ (-31 : ℤ) := by
  have htotal : |value center + value sum| ≤ (Bound.power 20).value := by
    refine (abs_add_le _ _).trans ((add_le_add hcenter.abs_value_le hsum.abs_value_le).trans ?_)
    norm_num [Bound.value_power]
  have hrounds := rounds_add hcenter.isFinite hsum.isFinite htotal
  refine ⟨hrounds.atMost.isFinite, ?_⟩
  calc |value (center + sum) - (value center + value p)|
      = |(value (center + sum) - (value center + value sum)) + (value sum - value p)| := by
        congr 1
        ring
    _ ≤ 2 ^ (Bound.power 20).exponent + 2 ^ (-32 : ℤ) :=
        (abs_add_le _ _).trans (add_le_add hrounds.error_le hnear)
    _ = 2 ^ (-31 : ℤ) := by norm_num [Bound.power]

/-- A part of a coordinate that is hardly more than nothing leaves room within the bounds. -/
theorem add_abs_le {p q : Float} (hp : AtMost (.power 18) p) (hq : AtMost (.power (-33)) q) :
    |value p| + |value q| ≤ (Bound.power 19).value ∧
      (2 : ℚ) ^ (Bound.power 19).exponent + |value q| ≤ 2 ^ (-32 : ℤ) := by
  have hp' := hp.abs_value_le
  have hq' := hq.abs_value_le
  rw [Bound.value_power] at hp' hq' ⊢
  constructor
  · norm_num at *
    linarith
  · norm_num [Bound.power] at *
    linarith

/-- **Where the sine is hardly more than nothing**, a point of an oval of moderate size is hardly
moved by the second semi-axis. -/
theorem Moderate.near_point (h : Turns cos sin) {o : Oval Float} (ho : o.Moderate)
    (hdegrees : o.degrees.isFinite = true) {t : Float} (hcos : AtMost .one (cos t))
    (hsin : AtMost (.power (-51)) (sin t)) :
    letI := turning cos sin
    let turn : Float := Scalar.radians o.degrees
    let p := o.point t
    (p.x.isFinite = true ∧ |value p.x - (value o.center.x + value (o.rx * cos t * cos turn))| ≤
        2 ^ (-31 : ℤ)) ∧
      (p.y.isFinite = true ∧ |value p.y - (value o.center.y + value (o.rx * cos t * sin turn))| ≤
        2 ^ (-31 : ℤ)) := by
  let _ := turning cos sin
  intro turn p
  have hturn : turn.isFinite = true := isFinite_radians hdegrees
  have hunit {b : Bound} : b.value * Bound.one.value ≤ b.value := by rw [Bound.value_one, mul_one]
  have hx : AtMost (.power 18) (o.rx * cos t) := ho.rx.mul hcos hunit
  have hy : AtMost (.power (-33)) (o.ry * sin t) := by
    refine ho.ry.mul hsin ?_
    rw [Bound.value_power, Bound.value_power, Bound.value_power]
    norm_num
  constructor
  · have hp := hx.mul (h.cos_atMost turn hturn) hunit
    have hq := hy.mul (h.sin_atMost turn hturn) hunit
    obtain ⟨hroom, hsmall⟩ := add_abs_le hp hq
    obtain ⟨hsum, hnear⟩ := near_sub hp.isFinite hq.isFinite hroom
    exact near_center ho.center_x hsum (hnear.trans hsmall)
  · have hp := hx.mul (h.sin_atMost turn hturn) hunit
    have hq := hy.mul (h.cos_atMost turn hturn) hunit
    obtain ⟨hroom, hsmall⟩ := add_abs_le hp hq
    obtain ⟨hsum, hnear⟩ := near_add hp.isFinite hq.isFinite hroom
    exact near_center ho.center_y hsum (hnear.trans hsmall)

/-- **The ends of an oval of moderate size coincide.** -/
theorem Moderate.same_ends (h : Turns cos sin) {o : Oval Float} (ho : o.Moderate)
    (hdegrees : o.degrees.isFinite = true) :
    letI := turning cos sin
    (Tolerance.standard : Tolerance Float).same (o.point (Scalar.ofNat 0)) (o.point Scalar.tau) =
      true := by
  let _ := turning cos sin
  have hzero : AtMost .one (cos (Scalar.ofNat 0)) := h.cos_atMost _
    (show (Float.ofNat 0).isFinite = true by decide +kernel)
  obtain ⟨⟨hx, hnearx⟩, hy, hneary⟩ := ho.near_point h hdegrees hzero h.sin_zero
  obtain ⟨⟨hx', hnearx'⟩, hy', hneary'⟩ := ho.near_point h hdegrees (h.cos_tau ▸ hzero) h.sin_tau
  rw [h.cos_tau] at hnearx' hneary'
  rw [Tolerance.same, Bool.and_eq_true]
  exact ⟨negligible_of_near hx hx' hnearx hnearx', negligible_of_near hy hy' hneary hneary'⟩

end Oval

end Straightedge
