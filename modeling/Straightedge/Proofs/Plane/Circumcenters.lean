import Mathlib.Data.List.Permutation
import Straightedge.Proofs.Plane.Intersections

/-! # Centers of circles through three positions

The center of the circle through three positions is found where the perpendicular bisectors of two
sides meet, those that end at the position in the middle. A bisector holds what is equally far from
both ends of its side, so the center is equally far from all three positions, and nothing else is.
Which order the positions come in therefore does not matter for the center, but it does for whether
there is one: only the two sides at the middle, and the angle between them, are looked at.

* **`Line.Equidistant`**: a position equally far from three others.
* **`Line.Near`**, **`Line.Flat`**: a side, and an angle, that is refused.
* **`Line.passes_bisector_iff`**: what a perpendicular bisector holds.
* **`Line.circumcenter_cases`**: what becomes of three positions.
* **`Line.circumcenter_eq_iff`**: when two orders of the same positions are judged alike.
* **`Line.forall_orders_iff`**: all orders of three things, by those with another one in the
  middle. -/

namespace Straightedge.Line

/-! ## Orders -/

/-- Three things have six orders. -/
theorem perm_three_iff {α : Type} {a b c x y z : α} :
    [x, y, z].Perm [a, b, c] ↔ x = a ∧ y = b ∧ z = c ∨ x = b ∧ y = a ∧ z = c ∨
      x = c ∧ y = b ∧ z = a ∨ x = b ∧ y = c ∧ z = a ∨ x = c ∧ y = a ∧ z = b ∨
        x = a ∧ y = c ∧ z = b := by
  rw [← List.mem_permutations]
  simp [List.permutations, List.permutationsAux_cons, List.permutationsAux_nil]

/-- **All orders of three things have the same value** if those with another one in the middle do,
and the way back never makes a difference. -/
theorem forall_orders_iff {α β : Type} {f : α → α → α → β} {a b c : α}
    (hreverse : ∀ x ∈ [a, b, c], ∀ y ∈ [a, b, c], ∀ z ∈ [a, b, c], f z y x = f x y z) :
    (∀ x y z, [x, y, z].Perm [a, b, c] → f x y z = f a b c) ↔
      f b a c = f a b c ∧ f a c b = f a b c := by
  constructor
  · exact fun h => ⟨h b a c (.swap a b [c]), h a c b (.cons a (.swap b c []))⟩
  · rintro ⟨hfirst, hlast⟩ x y z horder
    have hback {x y z : α} (hx : x ∈ [a, b, c]) (hy : y ∈ [a, b, c]) (hz : z ∈ [a, b, c]) :=
      hreverse x hx y hy z hz
    rcases perm_three_iff.1 horder with ⟨rfl, rfl, rfl⟩ | ⟨rfl, rfl, rfl⟩ | ⟨rfl, rfl, rfl⟩ |
      ⟨rfl, rfl, rfl⟩ | ⟨rfl, rfl, rfl⟩ | ⟨rfl, rfl, rfl⟩
    · rfl
    · exact hfirst
    · exact hback (by simp) (by simp) (by simp)
    · exact (hback (by simp) (by simp) (by simp)).trans hlast
    · exact (hback (by simp) (by simp) (by simp)).trans hfirst
    · exact hlast

variable {tol : Tolerance ℝ} {a b c m q : Coord ℝ}

/-! ## Three positions -/

/-- **A position is equally far from three others.** -/
def Equidistant (m a b c : Coord ℝ) : Prop :=
  (m - a).normSquared = (m - b).normSquared ∧ (m - b).normSquared = (m - c).normSquared

/-- Two positions are too close for a line through them. -/
def Near (tol : Tolerance ℝ) (a b : Coord ℝ) : Prop := distance a b < tol.coincidence

/-- **The way from `a` by `b` to `c` is all but straight**, or turns back at `b`. -/
def Flat (tol : Tolerance ℝ) (a b c : Coord ℝ) : Prop :=
  |(b - a).cross (c - b)| < tol.parallel * distance a b * distance b c

/-- **Three positions are judged alike in all orders**: two of their sides are refused, or none is,
and then either all three angles are or none of them. -/
def JudgedAlike (tol : Tolerance ℝ) (a b c : Coord ℝ) : Prop :=
  (Near tol a b ∧ Near tol b c ∨ Near tol b c ∧ Near tol c a ∨ Near tol c a ∧ Near tol a b) ∨
    ¬(Near tol a b ∨ Near tol b c ∨ Near tol c a) ∧
      (Flat tol a b c ↔ Flat tol b c a) ∧ (Flat tol b c a ↔ Flat tol c a b)

theorem near_comm : Near tol b a ↔ Near tol a b := by
  rw [Near, Near, distance, distance, norm_sub_comm]

/-- The way back is as straight. -/
theorem flat_reverse : Flat tol c b a ↔ Flat tol a b c :=
  parallel_swap.trans (parallel_comm.trans parallel_swap)

/-- What is equally far from three positions is so in any order of them. -/
theorem Equidistant.perm {a' b' c' : Coord ℝ} (horder : [a', b', c'].Perm [a, b, c])
    (h : Equidistant m a b c) : Equidistant m a' b' c' := by
  obtain ⟨hfirst, hsecond⟩ := h
  rcases perm_three_iff.1 horder with ⟨rfl, rfl, rfl⟩ | ⟨rfl, rfl, rfl⟩ | ⟨rfl, rfl, rfl⟩ |
    ⟨rfl, rfl, rfl⟩ | ⟨rfl, rfl, rfl⟩ | ⟨rfl, rfl, rfl⟩
  · exact ⟨hfirst, hsecond⟩
  · exact ⟨hfirst.symm, hfirst.trans hsecond⟩
  · exact ⟨hsecond.symm, hfirst.symm⟩
  · exact ⟨hsecond, (hfirst.trans hsecond).symm⟩
  · exact ⟨(hfirst.trans hsecond).symm, hfirst⟩
  · exact ⟨hfirst.trans hsecond, hsecond.symm⟩

/-- A position equally far from three others is at the same distance from each. -/
theorem Equidistant.distance_eq (h : Equidistant m a b c) :
    distance b m = distance a m ∧ distance c m = distance a m := by
  constructor
  · rw [distance, distance, Coord.norm, Coord.norm, h.1]
  · rw [distance, distance, Coord.norm, Coord.norm, h.1, h.2]

/-- Any order of the positions starts at the same distance. -/
theorem Equidistant.distance_eq_of_perm {a' b' c' : Coord ℝ} (h : Equidistant m a b c)
    (horder : [a', b', c'].Perm [a, b, c]) : distance a' m = distance a m := by
  have hmem : a' ∈ [a, b, c] := horder.mem_iff.1 List.mem_cons_self
  simp only [List.mem_cons, List.not_mem_nil, or_false] at hmem
  rcases hmem with rfl | rfl | rfl
  · rfl
  · exact h.distance_eq.1
  · exact h.distance_eq.2

/-! ## Bisectors -/

/-- A quarter turn keeps the length. -/
theorem norm_turnLeft (v : Coord ℝ) : v.turnLeft.norm = v.norm := by
  show √(-v.y * -v.y + v.x * v.x) = √(v.x * v.x + v.y * v.y)
  congr 1
  ring

/-- Quarter turns of both sides keep the area. -/
theorem cross_turnLeft (u v : Coord ℝ) : u.turnLeft.cross v.turnLeft = u.cross v := by
  show -u.y * v.x - u.x * -v.y = u.x * v.y - u.y * v.x
  ring

/-- The line through `p` and `p + v` runs in the direction of `v`. -/
theorem add_sub_start (p v : Coord ℝ) : p + v - p = v := by
  ext
  · exact add_sub_cancel_left p.x v.x
  · exact add_sub_cancel_left p.y v.y

/-- **The perpendicular bisector of a side holds what is equally far from its ends.** -/
theorem passes_bisector_iff :
    Passes (midpoint a b) (b - a).turnLeft m ↔ (m - a).normSquared = (m - b).normSquared := by
  have hcross : 2 * (m - midpoint a b).cross (b - a).turnLeft =
      (m - a).normSquared - (m - b).normSquared := by
    show 2 * ((m.x - (a.x + b.x) / (2 : ℕ)) * (b.x - a.x) -
        (m.y - (a.y + b.y) / (2 : ℕ)) * -(b.y - a.y)) =
      (m.x - a.x) * (m.x - a.x) + (m.y - a.y) * (m.y - a.y) -
        ((m.x - b.x) * (m.x - b.x) + (m.y - b.y) * (m.y - b.y))
    push_cast
    ring
  rw [Passes, ← sub_eq_zero (a := (m - a).normSquared), ← hcross]
  simp

/-- **Three positions that are not in line have one center at most.** -/
theorem eq_of_equidistant (hcross : (b - a).cross (c - b) ≠ 0) (hm : Equidistant m a b c)
    (hq : Equidistant q a b c) : q = m := by
  rw [← cross_turnLeft] at hcross
  exact eq_of_passes hcross ⟨passes_bisector_iff.2 hm.1, passes_bisector_iff.2 hm.2⟩
    ⟨passes_bisector_iff.2 hq.1, passes_bisector_iff.2 hq.2⟩

/-! ## Verdicts -/

theorem short_bisectors_iff :
    Short tol (midpoint a b + (b - a).turnLeft - midpoint a b)
      (midpoint b c + (c - b).turnLeft - midpoint b c) ↔ Near tol a b ∨ Near tol b c := by
  rw [add_sub_start, add_sub_start, Short, norm_turnLeft, norm_turnLeft]
  rfl

theorem parallel_bisectors_iff :
    Parallel tol (midpoint a b + (b - a).turnLeft - midpoint a b)
      (midpoint b c + (c - b).turnLeft - midpoint b c) ↔ Flat tol a b c := by
  rw [add_sub_start, add_sub_start, Parallel, cross_turnLeft, norm_turnLeft, norm_turnLeft]
  rfl

/-- **What becomes of three positions**: they are refused for a side at the one in the middle, or
else for the angle there, or else have a center. -/
theorem circumcenter_cases (hcoincidence : 0 < tol.coincidence) (hparallel : 0 < tol.parallel)
    (a b c : Coord ℝ) :
    (Near tol a b ∨ Near tol b c) ∧
        circumcenter tol a b c = .error (.degenerateLine .zeroLength) ∨
      ¬(Near tol a b ∨ Near tol b c) ∧ Flat tol a b c ∧
        circumcenter tol a b c = .error .parallelLines ∨
      ¬(Near tol a b ∨ Near tol b c) ∧ ¬Flat tol a b c ∧ (b - a).cross (c - b) ≠ 0 ∧
        ∃ m, circumcenter tol a b c = .ok m ∧ Equidistant m a b c := by
  rw [← short_bisectors_iff, ← parallel_bisectors_iff]
  set first := midpoint a b
  set second := midpoint b c
  by_cases hshort : Short tol (first + (b - a).turnLeft - first)
      (second + (c - b).turnLeft - second)
  · exact .inl ⟨hshort, intersection_of_short hshort⟩
  · by_cases hangle : Parallel tol (first + (b - a).turnLeft - first)
        (second + (c - b).turnLeft - second)
    · exact .inr (.inl ⟨hshort, hangle, intersection_of_parallel hcoincidence hshort hangle⟩)
    · have hcross := cross_ne_zero hcoincidence hparallel hshort hangle
      obtain ⟨m, hm, hfirst, hsecond⟩ :=
        exists_intersection hcoincidence hparallel hshort hangle
      rw [add_sub_start, add_sub_start, cross_turnLeft] at hcross
      rw [add_sub_start] at hfirst hsecond
      exact .inr (.inr ⟨hshort, hangle, hcross, m, hm, passes_bisector_iff.1 hfirst,
        passes_bisector_iff.1 hsecond⟩)

section

variable (hcoincidence : 0 < tol.coincidence) (hparallel : 0 < tol.parallel)
include hcoincidence hparallel

/-- **When three positions are degenerate**: a side at the one in the middle is too short. -/
theorem circumcenter_eq_degenerateLine_iff :
    circumcenter tol a b c = .error (.degenerateLine .zeroLength) ↔
      Near tol a b ∨ Near tol b c := by
  rcases circumcenter_cases hcoincidence hparallel a b c with
    ⟨hshort, h⟩ | ⟨hshort, -, h⟩ | ⟨hshort, -, -, m, h, -⟩
  · exact iff_of_true h hshort
  · exact iff_of_false (by simp [h]) hshort
  · exact iff_of_false (by simp [h]) hshort

/-- **When they are in line**: the sides at the one in the middle are long enough, and make no
angle. -/
theorem circumcenter_eq_parallelLines_iff :
    circumcenter tol a b c = .error .parallelLines ↔
      ¬(Near tol a b ∨ Near tol b c) ∧ Flat tol a b c := by
  rcases circumcenter_cases hcoincidence hparallel a b c with
    ⟨hshort, h⟩ | ⟨hshort, hflat, h⟩ | ⟨-, hflat, -, m, h, -⟩
  · exact iff_of_false (by simp [h]) fun hline => hline.1 hshort
  · exact iff_of_true h ⟨hshort, hflat⟩
  · exact iff_of_false (by simp [h]) fun hline => hflat hline.2

/-- **When they have a center, and which**: the only position that is equally far from them. -/
theorem circumcenter_eq_ok_iff :
    circumcenter tol a b c = .ok m ↔
      ¬(Near tol a b ∨ Near tol b c) ∧ ¬Flat tol a b c ∧ Equidistant m a b c := by
  rcases circumcenter_cases hcoincidence hparallel a b c with
    ⟨hshort, h⟩ | ⟨-, hflat, h⟩ | ⟨hshort, hflat, hcross, m', h, hm'⟩
  · exact iff_of_false (by simp [h]) fun hcenter => hcenter.1 hshort
  · exact iff_of_false (by simp [h]) fun hcenter => hcenter.2.1 hflat
  · rw [h]
    constructor
    · rintro ⟨⟩
      exact ⟨hshort, hflat, hm'⟩
    · rintro ⟨-, -, hm⟩
      rw [eq_of_equidistant hcross hm hm']

/-- Positions with a center are not in line. -/
theorem cross_ne_zero_of_circumcenter (h : circumcenter tol a b c = .ok m) :
    (b - a).cross (c - b) ≠ 0 := by
  rcases circumcenter_cases hcoincidence hparallel a b c with
    ⟨-, herror⟩ | ⟨-, -, herror⟩ | ⟨-, -, hcross, -⟩
  · cases h.symm.trans herror
  · cases h.symm.trans herror
  · exact hcross

/-- **When they have a center**, without reference to it: both sides at the middle are long enough,
and so is the angle. -/
theorem exists_circumcenter_iff :
    (∃ m, circumcenter tol a b c = .ok m) ↔
      tol.coincidence ≤ distance a b ∧ tol.coincidence ≤ distance b c ∧
        tol.parallel * distance a b * distance b c ≤ |(b - a).cross (c - b)| := by
  rw [← not_lt, ← not_lt, ← not_lt, ← and_assoc, ← not_or]
  change _ ↔ ¬(Near tol a b ∨ Near tol b c) ∧ ¬Flat tol a b c
  rcases circumcenter_cases hcoincidence hparallel a b c with
    ⟨hnear, h⟩ | ⟨-, hflat, h⟩ | ⟨hfar, hflat, -, m, h, -⟩
  · exact iff_of_false (by simp [h]) fun hcenter => hcenter.1 hnear
  · exact iff_of_false (by simp [h]) fun hcenter => hcenter.2 hflat
  · exact iff_of_true ⟨m, h⟩ ⟨hfar, hflat⟩

/-- Positions in line have no center. -/
theorem exists_circumcenter_error (hline : (b - a).cross (c - a) = 0) :
    ∃ e, circumcenter tol a b c = .error e := by
  cases hfound : circumcenter tol a b c with
  | error e => exact ⟨e, rfl⟩
  | ok m =>
    refine absurd (Eq.trans ?_ hline) (cross_ne_zero_of_circumcenter hcoincidence hparallel hfound)
    simp only [Exact.cross_eq, Exact.sub_eq]
    ring

/-- **A center has a radius**: it is none of the three positions. -/
theorem distance_center_pos (h : circumcenter tol a b c = .ok m) : 0 < distance a m := by
  have hm := ((circumcenter_eq_ok_iff hcoincidence hparallel).1 h).2.2
  refine (Real.sqrt_nonneg _).lt_of_ne fun hzero => ?_
  -- were the center the first position, it would be the second as well
  have ha : (m - a).norm = 0 := hzero.symm
  have hb : (m - b).norm = 0 := hm.distance_eq.1.trans ha
  apply cross_ne_zero_of_circumcenter hcoincidence hparallel h
  rw [eq_of_norm_sub_eq_zero ha, eq_of_norm_sub_eq_zero hb, Exact.cross_eq, Exact.sub_eq m m]
  simp

/-! ## Verdicts on two orders -/

/-- **When two orders of the same positions are judged alike**: if the sides at the middle are
refused in both or in neither, and in the latter case so is the angle. -/
theorem circumcenter_eq_iff {a' b' c' : Coord ℝ} (horder : [a', b', c'].Perm [a, b, c]) :
    circumcenter tol a' b' c' = circumcenter tol a b c ↔
      (Near tol a' b' ∨ Near tol b' c' ↔ Near tol a b ∨ Near tol b c) ∧
        (¬(Near tol a b ∨ Near tol b c) → (Flat tol a' b' c' ↔ Flat tol a b c)) := by
  constructor
  · intro heq
    have hshort : Near tol a' b' ∨ Near tol b' c' ↔ Near tol a b ∨ Near tol b c := by
      rw [← circumcenter_eq_degenerateLine_iff hcoincidence hparallel, heq,
        circumcenter_eq_degenerateLine_iff hcoincidence hparallel]
    refine ⟨hshort, fun hlong => ?_⟩
    have hline := circumcenter_eq_parallelLines_iff hcoincidence hparallel (a := a') (b := b')
      (c := c')
    rw [heq, circumcenter_eq_parallelLines_iff hcoincidence hparallel, hshort] at hline
    exact ⟨fun h => (hline.2 ⟨hlong, h⟩).2, fun h => (hline.1 ⟨hlong, h⟩).2⟩
  · rintro ⟨hshort, hflat⟩
    rcases circumcenter_cases hcoincidence hparallel a b c with
      ⟨hnear, h⟩ | ⟨hlong, hline, h⟩ | ⟨hlong, hline, -, m, h, hm⟩
    · rw [h, circumcenter_eq_degenerateLine_iff hcoincidence hparallel, hshort]
      exact hnear
    · rw [h, circumcenter_eq_parallelLines_iff hcoincidence hparallel, hshort, hflat hlong]
      exact ⟨hlong, hline⟩
    · rw [h, circumcenter_eq_ok_iff hcoincidence hparallel, hshort, hflat hlong]
      exact ⟨hlong, hline, hm.perm horder⟩

/-- A way that turns back to where it started is straight, if it has any length. -/
theorem flat_back (hfar : ¬Near tol a b) : Flat tol a b a := by
  have hlength : 0 < distance a b := hcoincidence.trans_le (not_lt.1 hfar)
  have hback : distance b a = distance a b := norm_sub_comm a b
  have hcross : (b - a).cross (a - b) = 0 := by
    simp only [Exact.cross_eq, Exact.sub_eq]
    ring
  rw [Flat, hcross, abs_zero, hback]
  exact mul_pos (mul_pos hparallel hlength) hlength

/-- **All orders that have a center have the same one**, and the same radius. -/
theorem exists_common_center (a b c : Coord ℝ) :
    ∃ m radius, ∀ a' b' c' m', [a', b', c'].Perm [a, b, c] →
      circumcenter tol a' b' c' = .ok m' → m' = m ∧ distance a' m' = radius := by
  by_cases hexists : ∃ m, Equidistant m a b c
  · obtain ⟨m, hm⟩ := hexists
    refine ⟨m, distance a m, fun a' b' c' m' horder h => ?_⟩
    have hm' := ((circumcenter_eq_ok_iff hcoincidence hparallel).1 h).2.2
    obtain rfl := eq_of_equidistant (cross_ne_zero_of_circumcenter hcoincidence hparallel h)
      (hm.perm horder) hm'
    exact ⟨rfl, hm.distance_eq_of_perm horder⟩
  · refine ⟨a, 0, fun a' b' c' m' horder h => absurd ⟨m', ?_⟩ hexists⟩
    exact ((circumcenter_eq_ok_iff hcoincidence hparallel).1 h).2.2.perm horder.symm

/-- The way back has the same center. -/
theorem circumcenter_reverse (a b c : Coord ℝ) :
    circumcenter tol c b a = circumcenter tol a b c := by
  have horder : [c, b, a].Perm [a, b, c] := perm_three_iff.2 (by simp)
  refine (circumcenter_eq_iff hcoincidence hparallel horder).2 ⟨?_, fun _ => flat_reverse⟩
  rw [near_comm, near_comm (a := a), or_comm]

/-- **When three positions are judged alike in all orders.** -/
theorem judgedAlike_iff : JudgedAlike tol a b c ↔
    circumcenter tol b a c = circumcenter tol a b c ∧
      circumcenter tol a c b = circumcenter tol a b c := by
  rw [circumcenter_eq_iff hcoincidence hparallel (.swap a b [c]),
    circumcenter_eq_iff hcoincidence hparallel (.cons a (.swap b c [])), JudgedAlike,
    near_comm (a := a) (b := b), near_comm (a := c) (b := a), near_comm (a := b) (b := c),
    flat_reverse (a := c) (b := a) (c := b), flat_reverse (a := b) (b := c) (c := a)]
  by_cases hab : Near tol a b <;> by_cases hbc : Near tol b c <;> by_cases hca : Near tol c a <;>
    simp only [hab, hbc, hca, or_true, or_false, and_true, and_false, true_and, false_and,
      not_true_eq_false, not_false_eq_true, false_implies, true_implies, iff_true, iff_false]
  tauto

end

end Straightedge.Line
