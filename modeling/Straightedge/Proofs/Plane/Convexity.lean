import Mathlib.Algebra.Order.BigOperators.Group.List
import Straightedge.Proofs.Plane.Shoelace

/-! # Convex rings

A ring is convex if all its vertices lie on one side of every edge, or on its line. Seen from one of
its vertices such a ring is a fan of triangles that all run the same way round, and the center of
gravity is a mean of the centers of these triangles. It lies strictly inside: on the line of an edge
it would have the whole ring on that line, which then had no area.

* **`Ring.HasOnSide`**: the vertices lie on one side of a line; **`Ring.ConvexTo`**: on the same
  side of every edge.
* **`Ring.ConvexTo.fan_nonneg`**: the triangles of the fan run the same way round.
* **`Ring.ConvexTo.strictly_inside`**: what balances the moments lies strictly inside.
* **`Ring.centroid?_strictly_inside`**: so does the center of gravity. -/

namespace Straightedge.Ring

/-! ## Sides -/

/-- The vertices of a ring lie on one side of the line through `a` in the direction of `u`, or on
it: on its left for a positive `side`, on its right for a negative one. -/
def HasOnSide (side : ℝ) (a u : Coord ℝ) (ring : List (Coord ℝ)) : Prop :=
  ∀ p ∈ ring, 0 ≤ side * u.cross (p - a)

/-- **All vertices lie on the same side of every edge**, or on its line. -/
def ConvexTo (side : ℝ) (ring : List (Coord ℝ)) : Prop :=
  ∀ e ∈ edges ring, HasOnSide side e.1 (e.2 - e.1) ring

variable {side : ℝ} {a o p q u : Coord ℝ} {ring : List (Coord ℝ)}

/-- Areas are taken apart along differences. -/
theorem cross_sub (u p q : Coord ℝ) : u.cross (p - q) = u.cross p - u.cross q := by
  simp only [Exact.cross_eq, Exact.sub_eq]
  ring

/-- Two directions along a third one span no area. -/
theorem cross_eq_zero_of_along {v w : Coord ℝ} (hu : u.x ≠ 0 ∨ u.y ≠ 0) (hv : u.cross v = 0)
    (hw : u.cross w = 0) : v.cross w = 0 := by
  rw [Exact.cross_eq] at hv hw ⊢
  obtain hx | hy := hu
  · refine (mul_eq_zero.1 ?_).resolve_left hx
    linear_combination v.x * hw - w.x * hv
  · refine (mul_eq_zero.1 ?_).resolve_left hy
    linear_combination v.y * hw - w.y * hv

/-- A triangle with its corners on one line has no area. -/
theorem cross_sub_eq_zero_of_on_line (hu : u.x ≠ 0 ∨ u.y ≠ 0) (ho : u.cross (o - a) = 0)
    (hp : u.cross (p - a) = 0) (hq : u.cross (q - a) = 0) : (p - o).cross (q - o) = 0 := by
  have hchord : ∀ r : Coord ℝ, u.cross (r - o) = u.cross (r - a) - u.cross (o - a) := by
    intro r
    rw [cross_sub, cross_sub, cross_sub, sub_sub_sub_cancel_right]
  refine cross_eq_zero_of_along hu ?_ ?_
  · rw [hchord, hp, ho, sub_zero]
  · rw [hchord, hq, ho, sub_zero]

/-- The corners of a triangle that lie on one side of a line are, with some area, not all on it. -/
theorem corners_pos_of_ne_zero (hu : u.x ≠ 0 ∨ u.y ≠ 0) (hside : side ≠ 0)
    (ho : 0 ≤ side * u.cross (o - a)) (hp : 0 ≤ side * u.cross (p - a))
    (hq : 0 ≤ side * u.cross (q - a)) (harea : (p - o).cross (q - o) ≠ 0) :
    0 < side * (u.cross (o - a) + u.cross (p - a) + u.cross (q - a)) := by
  rw [mul_add, mul_add]
  refine lt_of_le_of_ne (by positivity) fun hzero => harea ?_
  have hall : side * u.cross (o - a) = 0 ∧ side * u.cross (p - a) = 0 ∧
      side * u.cross (q - a) = 0 := by
    refine ⟨?_, ?_, ?_⟩ <;> linarith
  exact cross_sub_eq_zero_of_on_line hu ((mul_eq_zero.1 hall.1).resolve_left hside)
    ((mul_eq_zero.1 hall.2.1).resolve_left hside) ((mul_eq_zero.1 hall.2.2).resolve_left hside)

/-! ## Fans -/

namespace ConvexTo

/-- **Seen from a vertex of a convex ring, the triangles of the fan run the same way round.** -/
theorem fan_nonneg (h : ConvexTo side ring) (ho : o ∈ ring) {e : Coord ℝ × Coord ℝ}
    (he : e ∈ edges ring) : 0 ≤ side * (e.1 - o).cross (e.2 - o) := by
  have hturn : (e.1 - o).cross (e.2 - o) = (e.2 - e.1).cross (o - e.1) := by
    simp only [Exact.cross_eq, Exact.sub_eq]
    ring
  rw [hturn]
  exact h e he o ho

/-- With some area, one of the triangles has some. -/
theorem exists_fan_pos (h : ConvexTo side ring) (ho : o ∈ ring) (hside : side ≠ 0)
    (harea : doubleArea ring ≠ 0) :
    0 < side * doubleArea ring ∧
      ∃ e ∈ edges ring, 0 < side * (e.1 - o).cross (e.2 - o) := by
  have hsum : side * doubleArea ring =
      ((edges ring).map fun e => side * (e.1 - o).cross (e.2 - o)).sum := by
    rw [doubleArea_eq_fan o, List.sum_map_mul_left]
  have hnonneg : 0 ≤ side * doubleArea ring := by
    rw [hsum]
    refine List.sum_nonneg fun t ht => ?_
    obtain ⟨e, he, rfl⟩ := List.mem_map.1 ht
    exact h.fan_nonneg ho he
  have hpos : 0 < side * doubleArea ring :=
    lt_of_le_of_ne hnonneg (mul_ne_zero hside harea).symm
  refine ⟨hpos, ?_⟩
  obtain ⟨e, he, hlt⟩ := List.exists_lt_of_sum_lt (l := edges ring) (fun _ => (0 : ℝ))
    (fun e => side * (e.1 - o).cross (e.2 - o)) (by simpa [hsum] using hpos)
  exact ⟨e, he, hlt⟩

/-- **What balances the moments of a convex ring lies strictly on the inner side** of every line
that has the ring on that side. -/
theorem strictly_inside (h : ConvexTo side ring) (hside : side ≠ 0)
    (harea : doubleArea ring ≠ 0) {g : Coord ℝ}
    (hbalance : ∀ u : Coord ℝ, 3 * doubleArea ring * u.cross g = moment u ring)
    (hu : u.x ≠ 0 ∨ u.y ≠ 0) (hline : HasOnSide side a u ring) :
    0 < side * u.cross (g - a) := by
  -- the fan is seen from the first vertex
  obtain ⟨o, ho⟩ : ∃ o, o ∈ ring := by
    cases ring with
    | nil => exact absurd rfl harea
    | cons o rest => exact ⟨o, List.mem_cons_self ..⟩
  obtain ⟨hpos, e₀, he₀, hfan⟩ := h.exists_fan_pos ho hside harea
  -- area times place, for each triangle of the fan
  let share : Coord ℝ × Coord ℝ → ℝ := fun e => side * (e.1 - o).cross (e.2 - o) *
    (side * (u.cross (o - a) + u.cross (e.1 - a) + u.cross (e.2 - a)))
  have hnonneg : ∀ e ∈ edges ring, 0 ≤ share e := by
    intro e he
    obtain ⟨hstart, hend⟩ := mem_of_mem_edges he
    have hplaces := add_nonneg (add_nonneg (hline o ho) (hline e.1 hstart)) (hline e.2 hend)
    rw [← mul_add, ← mul_add] at hplaces
    exact mul_nonneg (h.fan_nonneg ho he) hplaces
  have hshare : 0 < share e₀ := by
    obtain ⟨hstart, hend⟩ := mem_of_mem_edges he₀
    exact mul_pos hfan (corners_pos_of_ne_zero hu hside (hline o ho) (hline e₀.1 hstart)
      (hline e₀.2 hend) (right_ne_zero_of_mul hfan.ne'))
  have hsum : 0 < ((edges ring).map share).sum := by
    simpa using List.sum_lt_sum (fun _ => (0 : ℝ)) share hnonneg ⟨e₀, he₀, hshare⟩
  -- all shares together are the place of the balance
  have hplace : ((edges ring).map share).sum =
      3 * (side * doubleArea ring) * (side * u.cross (g - a)) := by
    have heach : share = fun e => side * side * ((e.1 - o).cross (e.2 - o) *
        (u.cross o + u.cross e.1 + u.cross e.2 - 3 * u.cross a)) := by
      funext e
      simp only [share, cross_sub]
      ring
    rw [heach, List.sum_map_mul_left, sum_fan, ← hbalance u, cross_sub]
    ring
  rw [hplace] at hsum
  exact (mul_pos_iff_of_pos_left (by positivity)).1 hsum

end ConvexTo

/-! ## The center of gravity -/

/-- **The center of gravity of a convex ring lies strictly inside.** In exact arithmetic, let a ring
have all its vertices on the left of every edge (for a positive `side`), or all on the right (for a
negative one), let it not repeat its first vertex at its end, and let its area not be negligible, so
that it has at least three vertices. Then it has a center of gravity, and this lies strictly on the
inner side of every edge that has a length. -/
theorem centroid?_strictly_inside {tol : Tolerance ℝ} (hpos : 0 < tol.area) (hside : side ≠ 0)
    (hconvex : ConvexTo side ring) (hopen : isClosed tol ring = false)
    (harea : tol.area ≤ |signedArea tol ring|) :
    ∃ g, centroid? tol ring = some g ∧
      ∀ e ∈ edges ring, e.1 ≠ e.2 → 0 < side * (e.2 - e.1).cross (g - e.1) := by
  obtain ⟨g, hg, hbalance⟩ := exists_centroid? hpos harea
  have hring : openRing tol ring = ring := by rw [openRing, hopen]; rfl
  have hne := doubleArea_ne_zero hpos harea
  rw [hring] at hne hbalance
  refine ⟨g, hg, fun e he hlength => ?_⟩
  have hdirection : (e.2 - e.1).x ≠ 0 ∨ (e.2 - e.1).y ≠ 0 := by
    by_contra hnone
    rw [not_or, not_not, not_not] at hnone
    exact hlength (Coord.ext (sub_eq_zero.1 hnone.1).symm (sub_eq_zero.1 hnone.2).symm)
  exact hconvex.strictly_inside hside hne hbalance hdirection (hconvex e he)

/-- A clockwise square with a repeated corner and a vertex in the middle of a side has a center of
gravity strictly inside. -/
theorem centroid?_strictly_inside_of_square :
    let ring : List (Coord ℝ) := [⟨0, 0⟩, ⟨0, 2⟩, ⟨0, 2⟩, ⟨2, 2⟩, ⟨2, 1⟩, ⟨2, 0⟩]
    let tol : Tolerance ℝ := .standard
    0 < tol.area ∧ ConvexTo (-1) ring ∧ isClosed tol ring = false ∧
      tol.area ≤ |signedArea tol ring| ∧
      ∃ g, centroid? tol ring = some g ∧
        ∀ e ∈ edges ring, e.1 ≠ e.2 → 0 < -1 * (e.2 - e.1).cross (g - e.1) := by
  intro ring tol
  have hpos : 0 < tol.area := by
    show (0 : ℝ) < (1 : ℕ) * 10 ^ (-9 : ℤ)
    positivity
  have hconvex : ConvexTo (-1) ring := by
    simp only [ConvexTo, HasOnSide, ring, edges, Exact.cross_eq, Exact.sub_eq]
    norm_num
  have hopen : isClosed tol ring = false := by
    show (tol.negligible _ && tol.negligible _) = false
    rw [Bool.and_eq_false_iff, Tolerance.negligible, Exact.lt_eq_false_iff]
    left
    show (1 : ℕ) * (10 : ℝ) ^ (-9 : ℤ) ≤ |(0 : ℝ) - 2|
    norm_num
  have harea : tol.area ≤ |signedArea tol ring| := by
    rw [signedArea_eq, openRing, hopen]
    show (1 : ℕ) * (10 : ℝ) ^ (-9 : ℤ) ≤ |doubleArea ring / 2|
    simp only [doubleArea, ring, edges, Exact.cross_eq]
    norm_num
  exact ⟨hpos, hconvex, hopen, harea,
    centroid?_strictly_inside hpos (by norm_num) hconvex hopen harea⟩

end Straightedge.Ring
