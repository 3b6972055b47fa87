import Straightedge.Proofs.Plane.Intersections

/-! # Feet of perpendiculars

The foot of the perpendicular from a position to a line is computed from one of the two positions
that give the line. What it is does not depend on them: it is where the line meets the line square to
it through the position, and these two have one common point only. By the theorem of Pythagoras it is
also the nearest position on the line.

* **`Line.IsFoot`**: the foot of a perpendicular.
* **`Line.IsFoot.eq`**: there is one at most.
* **`Line.IsFoot.nearest`**: it is nearer than any other position on the line.
* **`Line.IsFoot.rebase`**: it does not depend on the positions that give the line.
* **`Line.foot_eq_ok_iff`**: what is computed.
* **`Line.foot_orthogonal_projection`**: all of this, for the result of the computation. -/

namespace Straightedge.Line

variable {tol : Tolerance ℝ} {a b c d f g p q u v w : Coord ℝ}

/-- **`f` is the foot of the perpendicular from `p` to line `ab`.** -/
structure IsFoot (p a b f : Coord ℝ) : Prop where
  /-- It lies on the line. -/
  passes : Passes a (b - a) f
  /-- The way to it is square to the line. -/
  square : (p - f).dot (b - a) = 0

/-! ## Directions along a line and square to it -/

/-- Directions along one line have no area. -/
theorem cross_eq_zero_of_along (hu : u.normSquared ≠ 0) (hv : v.cross u = 0) (hw : w.cross u = 0) :
    v.cross w = 0 := by
  refine (mul_eq_zero.1 ?_).resolve_left hu
  calc u.normSquared * v.cross w = v.cross u * u.dot w - v.dot u * w.cross u := by
        simp only [Coord.normSquared, Coord.cross, Coord.dot]
        ring
    _ = 0 := by rw [hv, hw, zero_mul, mul_zero, sub_zero]

/-- What is square to a line is square to every direction along it. -/
theorem dot_eq_zero_of_along (hu : u.normSquared ≠ 0) (hv : v.dot u = 0) (hw : w.cross u = 0) :
    v.dot w = 0 := by
  refine (mul_eq_zero.1 ?_).resolve_left hu
  calc u.normSquared * v.dot w = v.dot u * w.dot u + v.cross u * w.cross u := by
        simp only [Coord.normSquared, Coord.cross, Coord.dot]
        ring
    _ = 0 := by rw [hv, hw, zero_mul, mul_zero, add_zero]

/-- The way between two positions on a line runs along it. -/
theorem cross_sub_eq_zero (hp : Passes a u p) (hq : Passes a u q) : (q - p).cross u = 0 := by
  simp only [Passes, Exact.cross_eq, Exact.sub_eq] at hp hq ⊢
  linear_combination hq - hp

/-- Square to a line is the line in the direction of its quarter turn. -/
theorem passes_turnLeft_iff : Passes p u.turnLeft f ↔ (p - f).dot u = 0 := by
  have hneg : (f - p).cross u.turnLeft = -(p - f).dot u := by
    simp only [Coord.cross, Coord.dot, Coord.turnLeft, Exact.sub_eq]
    ring
  rw [Passes, hneg, neg_eq_zero]

/-- A line that is long enough has a direction. -/
theorem normSquared_ne_zero (hcoincidence : 0 < tol.coincidence)
    (hlong : tol.coincidence ≤ u.norm) : u.normSquared ≠ 0 := by
  intro hzero
  have hnorm : u.norm = 0 := (congrArg Real.sqrt hzero).trans Real.sqrt_zero
  exact (hcoincidence.trans_le hlong).ne' hnorm

/-! ## What a foot is -/

namespace IsFoot

/-- **There is one foot at most**: it is where the line meets the one square to it. -/
theorem eq (hab : (b - a).normSquared ≠ 0) (hf : IsFoot p a b f) (hg : IsFoot p a b g) : g = f := by
  have hturn : (b - a).cross (b - a).turnLeft = (b - a).normSquared := by
    simp only [Coord.cross, Coord.turnLeft, Coord.normSquared]
    ring
  exact eq_of_passes (hturn ▸ hab) ⟨hf.passes, passes_turnLeft_iff.2 hf.square⟩
    ⟨hg.passes, passes_turnLeft_iff.2 hg.square⟩

/-- **Pythagoras**: the squares over the legs make up the square over the way to any other position
on the line. -/
theorem normSquared_sub (hab : (b - a).normSquared ≠ 0) (hf : IsFoot p a b f)
    (hq : Passes a (b - a) q) :
    (q - p).normSquared = (f - p).normSquared + (q - f).normSquared := by
  have hsquare := dot_eq_zero_of_along hab hf.square (cross_sub_eq_zero hf.passes hq)
  simp only [Coord.dot, Coord.normSquared, Exact.sub_eq] at hsquare ⊢
  linear_combination -2 * hsquare

/-- **The foot is nearer than any other position on the line.** -/
theorem nearest (hab : (b - a).normSquared ≠ 0) (hf : IsFoot p a b f) (hq : Passes a (b - a) q)
    (hne : q ≠ f) : distance p f < distance p q := by
  refine Real.sqrt_lt_sqrt (normSquared_nonneg _) ?_
  rw [hf.normSquared_sub hab hq, lt_add_iff_pos_right]
  refine (normSquared_nonneg _).lt_of_ne fun hzero => hne ?_
  exact (eq_of_normSquared_sub_eq_zero hzero.symm).symm

/-- **Any two positions on the line have the same foot.** -/
theorem rebase (hab : (b - a).normSquared ≠ 0) (hc : Passes a (b - a) c) (hd : Passes a (b - a) d)
    (hf : IsFoot p a b f) : IsFoot p c d f where
  passes := cross_eq_zero_of_along hab (cross_sub_eq_zero hc hf.passes) (cross_sub_eq_zero hc hd)
  square := dot_eq_zero_of_along hab hf.square (cross_sub_eq_zero hc hd)

/-- A position on the line is its own foot. -/
theorem self (hf : Passes a (b - a) f) : IsFoot f a b f where
  passes := hf
  square := by
    simp only [Coord.dot, Exact.sub_eq]
    ring

end IsFoot

/-! ## What is computed -/

/-- A short line is refused. -/
theorem foot_of_short (hshort : (b - a).norm < tol.coincidence) (p : Coord ℝ) :
    foot tol p a b = .error (.degenerateLine .zeroBase) :=
  if_pos (Exact.lt_iff.2 hshort)

section

variable (hcoincidence : 0 < tol.coincidence)
include hcoincidence

/-- A longer one has a foot, and it is found. -/
theorem exists_foot (hlong : tol.coincidence ≤ (b - a).norm) (p : Coord ℝ) :
    ∃ f, foot tol p a b = .ok f ∧ IsFoot p a b f := by
  let t := (p - a).dot (b - a) / (b - a).normSquared
  have ht : t * (b - a).normSquared = (p - a).dot (b - a) :=
    div_mul_cancel₀ _ (normSquared_ne_zero hcoincidence hlong)
  refine ⟨a + (b - a).scale t, if_neg (mt Exact.lt_iff.1 hlong.not_gt), ?_, ?_⟩
  · simp only [Passes, Exact.cross_eq, Coord.sub_x, Coord.sub_y, Coord.add_x, Coord.add_y,
      Coord.scale_x, Coord.scale_y]
    ring
  · simp only [Coord.dot, Coord.normSquared, Coord.sub_x, Coord.sub_y] at ht
    simp only [Coord.dot, Coord.sub_x, Coord.sub_y, Coord.add_x, Coord.add_y, Coord.scale_x,
      Coord.scale_y]
    linear_combination -ht

/-- **What is computed** is the foot, unless the line is too short. -/
theorem foot_eq_ok_iff :
    foot tol p a b = .ok f ↔ tol.coincidence ≤ (b - a).norm ∧ IsFoot p a b f := by
  rcases lt_or_ge (b - a).norm tol.coincidence with hshort | hlong
  · rw [foot_of_short hshort]
    exact iff_of_false (fun h => nomatch h) fun h => hshort.not_ge h.1
  · obtain ⟨g, hg, hfoot⟩ := exists_foot hcoincidence hlong p
    rw [hg]
    constructor
    · rintro ⟨⟩
      exact ⟨hlong, hfoot⟩
    · rintro ⟨-, hf⟩
      rw [hf.eq (normSquared_ne_zero hcoincidence hlong) hfoot]

/-- Positions far enough apart on one line have the same foot. -/
theorem foot_rebase (hab : tol.coincidence ≤ (b - a).norm) (hcd : tol.coincidence ≤ (d - c).norm)
    (hc : Passes a (b - a) c) (hd : Passes a (b - a) d) (p : Coord ℝ) :
    foot tol p c d = foot tol p a b := by
  obtain ⟨f, hfound, hf⟩ := exists_foot hcoincidence hab p
  rw [hfound, foot_eq_ok_iff hcoincidence]
  exact ⟨hcd, hf.rebase (normSquared_ne_zero hcoincidence hab) hc hd⟩

omit hcoincidence in
/-- A line passes through both positions that give it. -/
theorem passes_ends (a b : Coord ℝ) : Passes a (b - a) a ∧ Passes a (b - a) b := by
  constructor <;>
  · simp only [Passes, Exact.cross_eq, Exact.sub_eq]
    ring

/-- The positions on the line change places. -/
theorem foot_swap (p a b : Coord ℝ) : foot tol p b a = foot tol p a b := by
  rcases lt_or_ge (b - a).norm tol.coincidence with hshort | hlong
  · rw [foot_of_short hshort, foot_of_short (norm_sub_comm a b ▸ hshort)]
  · exact foot_rebase hcoincidence hlong (norm_sub_comm a b ▸ hlong) (passes_ends a b).2
      (passes_ends a b).1 p

end

/-- **The foot of a perpendicular is the orthogonal projection.** In exact arithmetic with a
positive tolerance, there is none exactly if the line is too short, and the positions that give the
line may change places. Otherwise the foot lies on the line, the way to it is square to the line,
every other position on the line is further away, any two positions on the line that are far enough
apart give the same foot, and the foot is its own. -/
theorem foot_orthogonal_projection (hcoincidence : 0 < tol.coincidence) (p a b : Coord ℝ) :
    let found := foot tol p a b
    let short := (b - a).norm < tol.coincidence
    ((∃ e, found = .error e) ↔ short) ∧
      (short → found = .error (.degenerateLine .zeroBase)) ∧
      foot tol p b a = found ∧
      (¬short → ∃ f, found = .ok f ∧ Passes a (b - a) f ∧ (p - f).dot (b - a) = 0 ∧
        (∀ q, Passes a (b - a) q → distance p f ≤ distance p q ∧
          (distance p q = distance p f → q = f)) ∧
        (∀ c d, Passes a (b - a) c → Passes a (b - a) d → tol.coincidence ≤ (d - c).norm →
          foot tol p c d = .ok f) ∧
        foot tol f a b = .ok f) := by
  intro found short
  refine ⟨⟨?_, fun h => ⟨_, foot_of_short h p⟩⟩, fun h => foot_of_short h p,
    foot_swap hcoincidence p a b, fun h => ?_⟩
  · rintro ⟨e, he⟩
    by_contra hlong
    obtain ⟨f, hf, -⟩ := exists_foot hcoincidence (not_lt.1 hlong) p
    cases hf.symm.trans he
  · have hlong : tol.coincidence ≤ (b - a).norm := not_lt.1 h
    have hab := normSquared_ne_zero hcoincidence hlong
    obtain ⟨f, hfound, hf⟩ := exists_foot hcoincidence hlong p
    refine ⟨f, hfound, hf.passes, hf.square, fun q hq => ?_, fun c d hc hd hcd => ?_, ?_⟩
    · by_cases hqf : q = f
      · exact hqf ▸ ⟨le_rfl, fun _ => rfl⟩
      · have hlt := hf.nearest hab hq hqf
        exact ⟨hlt.le, fun heq => absurd heq hlt.ne'⟩
    · exact (foot_rebase hcoincidence hlong hcd hc hd p).trans hfound
    · exact (foot_eq_ok_iff hcoincidence).2 ⟨hlong, .self hf.passes⟩

/-- A foot on a sloping line. -/
theorem foot_orthogonal_projection_of_sloping :
    let tol : Tolerance ℝ := .standard
    0 < tol.coincidence ∧ foot tol ⟨0, 5⟩ ⟨0, 0⟩ ⟨3, 4⟩ = .ok ⟨12 / 5, 16 / 5⟩ := by
  intro tol
  have hcoincidence : tol.coincidence = 1 / 10 ^ 9 := Exact.coincidence_standard_eq_div
  have hpos : 0 < tol.coincidence := by norm_num [hcoincidence]
  have hlength : ((⟨3, 4⟩ : Coord ℝ) - ⟨0, 0⟩).norm = 5 :=
    distance_eq_of_square (by norm_num) (by norm_num)
  obtain ⟨-, -, -, hfoot⟩ := foot_orthogonal_projection hpos ⟨0, 5⟩ ⟨0, 0⟩ ⟨3, 4⟩
  obtain ⟨f, hfound, hpasses, hsquare, -⟩ :=
    hfoot (by rw [hlength, hcoincidence]; norm_num)
  have hf : IsFoot ⟨0, 5⟩ ⟨0, 0⟩ ⟨3, 4⟩ (⟨12 / 5, 16 / 5⟩ : Coord ℝ) := by
    constructor <;> norm_num [Passes, Exact.cross_eq, Coord.dot]
  have hab : ((⟨3, 4⟩ : Coord ℝ) - ⟨0, 0⟩).normSquared ≠ 0 := by norm_num [Coord.normSquared]
  rw [hfound, hf.eq hab ⟨hpasses, hsquare⟩]
  exact ⟨hpos, rfl⟩

end Straightedge.Line
