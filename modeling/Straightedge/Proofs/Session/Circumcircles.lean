import Straightedge.Proofs.Plane.Circumcenters
import Straightedge.Proofs.Session.Finiteness
import Straightedge.Proofs.Session.Outlines

/-! # Circles through three points

A circle through three points is drawn around their center with its distance from the first of them
as the radius. In exact arithmetic the center is as far from the other two. Which of the three
points stands in the middle matters: only the sides and the angle there can be refused, so that one
order may be refused where another one is drawn.

* **`Session.perform_circleThrough_congr`**: points with the same center and radius have the same
  circle.
* **`Session.perform_circleThrough_cases`**: what becomes of three points.
* **`Session.circleThrough_equidistant`**: a circle through three points passes through them.
* **`Session.Reachable.circleThrough_orders_iff`**: when the order of the points does not matter. -/

namespace Straightedge

/-! ## Vertices of a circle -/

/-- **The vertices of a circle lie on it.** -/
theorem Sampling.distance_of_mem_circle {center v : Coord ℝ} {radius : ℝ} {segments : Nat}
    (hradius : 0 ≤ radius) (hv : v ∈ circle center radius segments) :
    distance v center = radius := by
  simp only [circle, ellipse, List.mem_map] at hv
  obtain ⟨i, -, rfl⟩ := hv
  generalize share i (closedSegments segments) * (Scalar.tau : ℝ) = t
  have hturn : Scalar.radians (Scalar.zero : ℝ) = 0 := by
    rw [Exact.zero_eq]
    exact zero_mul _
  have hcos : (Scalar.cos 0 : ℝ) = 1 := Real.cos_zero
  have hsin : (Scalar.sin 0 : ℝ) = 0 := Real.sin_zero
  have hcircle : Scalar.sin t ^ 2 + Scalar.cos t ^ 2 = 1 := Real.sin_sq_add_cos_sq t
  refine Line.distance_eq_of_square hradius ?_
  simp only [hturn, hcos, hsin, Coord.add_x, Coord.add_y]
  linear_combination radius * radius * hcircle

namespace Session

/-! ## Plans -/

section

variable {α : Type} [Scalar α] [Numeral α] {s : Session α} {p q r p' q' r' : Reference α}
  {a b c a' b' c' : Coord α} {name : Option String}

/-- A circle through three points is planned around their center. -/
theorem plan_circleThrough (hp : s.registry.position p = .ok a)
    (hq : s.registry.position q = .ok b) (hr : s.registry.position r = .ok c)
    (name : Option String) :
    Operation.plan s (.circleThrough p q r name) = (do
      let center ← Line.circumcenter s.settings.tolerance a b c
      requirePositive "radius" (distance a center)
      s.sampledCircle center (distance a center) name) := by
  rw [Operation.plan, circleThrough, hp, hq, hr]
  rfl

/-- **Points with the same center and radius have the same circle.** -/
theorem perform_circleThrough_congr (hp : s.registry.position p = .ok a)
    (hq : s.registry.position q = .ok b) (hr : s.registry.position r = .ok c)
    (hp' : s.registry.position p' = .ok a') (hq' : s.registry.position q' = .ok b')
    (hr' : s.registry.position r' = .ok c')
    (hcenter : Line.circumcenter s.settings.tolerance a' b' c' =
      Line.circumcenter s.settings.tolerance a b c)
    (hradius : ∀ m, Line.circumcenter s.settings.tolerance a b c = .ok m →
      distance a' m = distance a m) :
    s.perform (.circleThrough p' q' r' name) = s.perform (.circleThrough p q r name) := by
  rw [perform_eq, perform_eq, plan_circleThrough hp hq hr, plan_circleThrough hp' hq' hr', hcenter]
  cases hm : Line.circumcenter s.settings.tolerance a b c with
  | error e => rfl
  | ok m =>
    simp only [bind, Except.bind, hradius m hm]

/-- Points without a center are refused. -/
theorem perform_circleThrough_of_error {e : ConstructionError} (hp : s.registry.position p = .ok a)
    (hq : s.registry.position q = .ok b) (hr : s.registry.position r = .ok c)
    (hcenter : Line.circumcenter s.settings.tolerance a b c = .error e) :
    (s.perform (.circleThrough p q r name)).1 = .error e := by
  have hplan := plan_circleThrough hp hq hr name
  rw [hcenter] at hplan
  rw [perform_of_error hplan]

/-- A circle through three points that is drawn is the ring of the samples around their center. -/
theorem exists_gives_of_circleThrough (hs : s.registry.Indexed)
    (hp : s.registry.position p = .ok a) (hq : s.registry.position q = .ok b)
    (hr : s.registry.position r = .ok c) {v : Value α}
    (hok : (s.perform (.circleThrough p q r name)).1 = .ok v) :
    ∃ m curve, Line.circumcenter s.settings.tolerance a b c = .ok m ∧
      s.Gives (.circleThrough p q r name) (.curve curve) ∧
      curve.IsRing s.settings.tolerance
        (Sampling.circle m (distance a m) s.settings.curveSegments) := by
  obtain ⟨o, curve, hoval, -, hgives, hring⟩ := exists_oval_of_perform hs rfl hok
  cases hoval with
  | @circleThrough _ _ _ _ _ _ m _ hfirst hsecond hthird hcenter =>
    cases hp.symm.trans hfirst
    cases hq.symm.trans hsecond
    cases hr.symm.trans hthird
    exact ⟨m, curve, hcenter, hgives, hring⟩

end

/-! ## Exact arithmetic -/

variable [Numeral ℝ] {s : Session ℝ} {p q r p' q' r' : Reference ℝ} {a b c m a' b' c' : Coord ℝ}
  {name : Option String}

/-- Points with a center have a circle, if it gets a name and may have as many vertices. -/
theorem perform_circleThrough_of_ok (hs : s.registry.Indexed) (hp : s.registry.position p = .ok a)
    (hq : s.registry.position q = .ok b) (hr : s.registry.position r = .ok c)
    (hcenter : Line.circumcenter s.settings.tolerance a b c = .ok m)
    (hradius : 0 < distance a m) (name : Option String) :
    (s.perform (.circleThrough p q r name)).1 = (do
      requireVertexCount "curve segments" s.settings.curveSegments
      return .name (← s.nameFor name "Circle")) := by
  have hplan := plan_circleThrough hp hq hr name
  have hpositive : requirePositive "radius" (distance a m) = .ok () := by
    have hle : Scalar.le (distance a m) Scalar.zero = false := by
      rw [Exact.le_eq_false_iff, Exact.zero_eq]
      exact hradius
    rw [requirePositive, hle]
    rfl
  rw [hcenter] at hplan
  change _ = requirePositive _ _ >>= _ at hplan
  rw [hpositive] at hplan
  change _ = s.sampledCircle m (distance a m) name at hplan
  cases hcount : requireVertexCount "curve segments" s.settings.curveSegments with
  | error e =>
    rw [sampledCircle, hcount] at hplan
    rw [perform_of_error hplan]
    rfl
  | ok _ =>
    cases hname : s.nameFor name "Circle" with
    | error e =>
      rw [sampledCircle, hcount, hname] at hplan
      rw [perform_of_error hplan]
      rfl
    | ok n =>
      obtain ⟨curve, hcircle⟩ := exists_sampledCircle m (distance a m)
        (requireVertexCount_eq_ok_iff.1 hcount) hname fun _ _ => rfl
      obtain ⟨r, -, hperform⟩ := exists_perform_addOne (hplan.trans hcircle)
        (requireFree_of_nameFor hs hname)
      rw [hperform]
      rfl

omit [Numeral ℝ] in
/-- A circle that has a center is refused for the number of its vertices or for its name only. -/
theorem ne_of_circle_error {e : ConstructionError}
    (h : (do
      requireVertexCount "curve segments" s.settings.curveSegments
      return .name (← s.nameFor name "Circle")) = (.error e : Except ConstructionError (Value ℝ))) :
    (∀ reason, e ≠ .degenerateLine reason) ∧ e ≠ .parallelLines := by
  rw [requireVertexCount] at h
  by_cases hcount : vertexLimit < s.settings.curveSegments
  · rw [if_pos hcount] at h
    cases h
    exact ⟨fun _ => by simp, by simp⟩
  · rw [if_neg hcount] at h
    cases hname : s.nameFor name "Circle" with
    | error e' =>
      rw [hname] at h
      cases h
      rcases nameFor_eq_error hname with rfl | ⟨n, rfl⟩
      · exact ⟨fun _ => by simp, by simp⟩
      · exact ⟨fun _ => by simp, by simp⟩
    | ok n =>
      rw [hname] at h
      cases h

/-- **What becomes of three points**: they are refused for a side at the one in the middle, or else
for the angle there, or else have a center, and then are refused for neither. -/
theorem perform_circleThrough_cases (hs : s.registry.Indexed)
    (hcoincidence : 0 < s.settings.tolerance.coincidence)
    (hparallel : 0 < s.settings.tolerance.parallel) (hp : s.registry.position p = .ok a)
    (hq : s.registry.position q = .ok b) (hr : s.registry.position r = .ok c)
    (name : Option String) :
    let tol := s.settings.tolerance
    let found := (s.perform (.circleThrough p q r name)).1
    (Line.Near tol a b ∨ Line.Near tol b c) ∧ found = .error (.degenerateLine .zeroLength) ∨
      ¬(Line.Near tol a b ∨ Line.Near tol b c) ∧ Line.Flat tol a b c ∧
        found = .error .parallelLines ∨
      ¬(Line.Near tol a b ∨ Line.Near tol b c) ∧ ¬Line.Flat tol a b c ∧
        (∃ m, Line.circumcenter tol a b c = .ok m) ∧
        ∀ e, found = .error e → (∀ reason, e ≠ .degenerateLine reason) ∧ e ≠ .parallelLines := by
  intro tol found
  rcases Line.circumcenter_cases hcoincidence hparallel a b c with
    ⟨hnear, h⟩ | ⟨hfar, hflat, h⟩ | ⟨hfar, hflat, -, m, h, -⟩
  · exact .inl ⟨hnear, perform_circleThrough_of_error hp hq hr h⟩
  · exact .inr (.inl ⟨hfar, hflat, perform_circleThrough_of_error hp hq hr h⟩)
  · refine .inr (.inr ⟨hfar, hflat, ⟨m, h⟩, fun e he => ?_⟩)
    have hfound := perform_circleThrough_of_ok hs hp hq hr h
      (Line.distance_center_pos hcoincidence hparallel h) name
    exact ne_of_circle_error (hfound.symm.trans he)

/-- Points in another order have the same positions, in that order. -/
theorem exists_positions_of_perm (hp : s.registry.position p = .ok a)
    (hq : s.registry.position q = .ok b) (hr : s.registry.position r = .ok c)
    (horder : [p', q', r'].Perm [p, q, r]) :
    ∃ a' b' c', s.registry.position p' = .ok a' ∧ s.registry.position q' = .ok b' ∧
      s.registry.position r' = .ok c' ∧ [a', b', c'].Perm [a, b, c] := by
  rcases Line.perm_three_iff.1 horder with ⟨rfl, rfl, rfl⟩ | ⟨rfl, rfl, rfl⟩ | ⟨rfl, rfl, rfl⟩ |
    ⟨rfl, rfl, rfl⟩ | ⟨rfl, rfl, rfl⟩ | ⟨rfl, rfl, rfl⟩
  · exact ⟨a, b, c, hp, hq, hr, .refl _⟩
  · exact ⟨b, a, c, hq, hp, hr, Line.perm_three_iff.2 (by simp)⟩
  · exact ⟨c, b, a, hr, hq, hp, Line.perm_three_iff.2 (by simp)⟩
  · exact ⟨b, c, a, hq, hr, hp, Line.perm_three_iff.2 (by simp)⟩
  · exact ⟨c, a, b, hr, hp, hq, Line.perm_three_iff.2 (by simp)⟩
  · exact ⟨a, c, b, hp, hr, hq, Line.perm_three_iff.2 (by simp)⟩

section

variable (hs : s.registry.Indexed) (hcoincidence : 0 < s.settings.tolerance.coincidence)
  (hparallel : 0 < s.settings.tolerance.parallel) (hp : s.registry.position p = .ok a)
  (hq : s.registry.position q = .ok b) (hr : s.registry.position r = .ok c) (name : Option String)
include hs hcoincidence hparallel hp hq hr

/-- **Points are refused as degenerate** for a side at the one in the middle. -/
theorem circleThrough_degenerateLine_iff :
    (∃ reason, (s.perform (.circleThrough p q r name)).1 = .error (.degenerateLine reason)) ↔
      Line.Near s.settings.tolerance a b ∨ Line.Near s.settings.tolerance b c := by
  rcases perform_circleThrough_cases hs hcoincidence hparallel hp hq hr name with
    ⟨hnear, h⟩ | ⟨hfar, -, h⟩ | ⟨hfar, -, -, h⟩
  · exact iff_of_true ⟨_, h⟩ hnear
  · exact iff_of_false (by simp [h]) hfar
  · exact iff_of_false (fun ⟨_, hfound⟩ => (h _ hfound).1 _ rfl) hfar

/-- **Points are refused as parallel** for the angle at the one in the middle. -/
theorem circleThrough_parallelLines_iff :
    (s.perform (.circleThrough p q r name)).1 = .error .parallelLines ↔
      ¬(Line.Near s.settings.tolerance a b ∨ Line.Near s.settings.tolerance b c) ∧
        Line.Flat s.settings.tolerance a b c := by
  rcases perform_circleThrough_cases hs hcoincidence hparallel hp hq hr name with
    ⟨hnear, h⟩ | ⟨hfar, hflat, h⟩ | ⟨-, hflat, -, h⟩
  · exact iff_of_false (by simp [h]) fun hline => hline.1 hnear
  · exact iff_of_true h ⟨hfar, hflat⟩
  · exact iff_of_false (fun hfound => (h _ hfound).2 rfl) fun hline => hflat hline.2

/-- **Two orders of points have the same circle**, or the same error, exactly if they have the same
center. -/
theorem perform_circleThrough_eq_iff (hp' : s.registry.position p' = .ok a')
    (hq' : s.registry.position q' = .ok b') (hr' : s.registry.position r' = .ok c')
    (horder : [a', b', c'].Perm [a, b, c]) :
    s.perform (.circleThrough p' q' r' name) = s.perform (.circleThrough p q r name) ↔
      Line.circumcenter s.settings.tolerance a' b' c' =
        Line.circumcenter s.settings.tolerance a b c := by
  constructor
  · intro heq
    have hnear : Line.Near s.settings.tolerance a' b' ∨ Line.Near s.settings.tolerance b' c' ↔
        Line.Near s.settings.tolerance a b ∨ Line.Near s.settings.tolerance b c := by
      rw [← circleThrough_degenerateLine_iff hs hcoincidence hparallel hp hq hr name, ← heq,
        circleThrough_degenerateLine_iff hs hcoincidence hparallel hp' hq' hr' name]
    refine (Line.circumcenter_eq_iff hcoincidence hparallel horder).2 ⟨hnear, fun hfar => ?_⟩
    have hline := circleThrough_parallelLines_iff hs hcoincidence hparallel hp' hq' hr' name
    rw [heq, circleThrough_parallelLines_iff hs hcoincidence hparallel hp hq hr name,
      hnear] at hline
    exact ⟨fun h => (hline.2 ⟨hfar, h⟩).2, fun h => (hline.1 ⟨hfar, h⟩).2⟩
  · intro hcenter
    refine perform_circleThrough_congr hp hq hr hp' hq' hr' hcenter fun m hm => ?_
    have hequal := ((Line.circumcenter_eq_ok_iff hcoincidence hparallel).1 hm).2.2
    exact hequal.distance_eq_of_perm horder

/-- The way back has the same outcome. -/
theorem perform_circleThrough_reverse :
    s.perform (.circleThrough r q p name) = s.perform (.circleThrough p q r name) :=
  (perform_circleThrough_eq_iff hs hcoincidence hparallel hp hq hr name hr hq hp
    (Line.perm_three_iff.2 (by simp))).2 (Line.circumcenter_reverse hcoincidence hparallel a b c)

/-- **One circle is drawn in all orders that are not refused.** -/
theorem exists_common_circle :
    ∃ m radius, ∀ x y z, [x, y, z].Perm [p, q, r] →
      (∃ reason, (s.perform (.circleThrough x y z name)).1 = .error (.degenerateLine reason)) ∨
        (s.perform (.circleThrough x y z name)).1 = .error .parallelLines ∨
        s.DrawsOval (.circleThrough x y z name) ⟨m, radius, radius, Scalar.zero⟩ := by
  obtain ⟨m, radius, hcommon⟩ := Line.exists_common_center hcoincidence hparallel a b c
  refine ⟨m, radius, fun x y z horder => ?_⟩
  obtain ⟨a', b', c', hx, hy, hz, hpositions⟩ := exists_positions_of_perm hp hq hr horder
  rcases perform_circleThrough_cases hs hcoincidence hparallel hx hy hz name with
    ⟨-, h⟩ | ⟨-, -, h⟩ | ⟨-, -, ⟨m', hm'⟩, -⟩
  · exact .inl ⟨_, h⟩
  · exact .inr (.inl h)
  · obtain ⟨rfl, rfl⟩ := hcommon a' b' c' m' hpositions hm'
    exact .inr (.inr (.circleThrough name hx hy hz hm'))

/-- **All orders have the same outcome** exactly if they are judged alike. -/
theorem forall_circleThrough_eq_iff :
    (∀ x y z, [x, y, z].Perm [p, q, r] →
      s.perform (.circleThrough x y z name) = s.perform (.circleThrough p q r name)) ↔
        Line.JudgedAlike s.settings.tolerance a b c := by
  have hmem {x : Reference ℝ} (hx : x ∈ [p, q, r]) : ∃ a, s.registry.position x = .ok a := by
    simp only [List.mem_cons, List.not_mem_nil, or_false] at hx
    rcases hx with rfl | rfl | rfl
    · exact ⟨a, hp⟩
    · exact ⟨b, hq⟩
    · exact ⟨c, hr⟩
  rw [Line.forall_orders_iff (f := fun x y z => s.perform (.circleThrough x y z name)),
    Line.judgedAlike_iff hcoincidence hparallel]
  · exact and_congr
      (perform_circleThrough_eq_iff hs hcoincidence hparallel hp hq hr name hq hp hr
        (.swap a b [c]))
      (perform_circleThrough_eq_iff hs hcoincidence hparallel hp hq hr name hp hr hq
        (.cons a (.swap b c [])))
  · intro x hx y hy z hz
    obtain ⟨_, hx⟩ := hmem hx
    obtain ⟨_, hy⟩ := hmem hy
    obtain ⟨_, hz⟩ := hmem hz
    exact perform_circleThrough_reverse hs hcoincidence hparallel hx hy hz name

end

/-- **A circle through three points passes through them.** In exact arithmetic with positive
tolerances, a center is found exactly if both sides at the second position are long enough and their
angle is not refused; then it is the only position that is equally far from all three, and positions
in line have none. A circle that is drawn through three points, in any session that operations lead
to, is the ring of the samples around their center; its radius, the distance of the first point, is
that of the second and of the third as well, and all its vertices are as far from the center. -/
theorem circleThrough_equidistant {tol : Tolerance ℝ} (hcoincidence : 0 < tol.coincidence)
    (hparallel : 0 < tol.parallel) (a b c : Coord ℝ) :
    let found := Line.circumcenter tol a b c
    ((∃ m, found = .ok m) ↔ tol.coincidence ≤ distance a b ∧ tol.coincidence ≤ distance b c ∧
        tol.parallel * distance a b * distance b c ≤ |(b - a).cross (c - b)|) ∧
      (∀ m, found = .ok m → Line.Equidistant m a b c ∧
        ∀ q, Line.Equidistant q a b c → q = m) ∧
      ((b - a).cross (c - a) = 0 → ∃ e, found = .error e) ∧
      ∀ s : Session ℝ, s.Reachable → s.settings.tolerance = tol → ∀ p q r name,
        s.registry.position p = .ok a → s.registry.position q = .ok b →
        s.registry.position r = .ok c →
          let op := Operation.circleThrough p q r name
          ∀ v, (s.perform op).1 = .ok v → ∃ m radius curve, found = .ok m ∧ 0 < radius ∧
            distance a m = radius ∧ distance b m = radius ∧ distance c m = radius ∧
            s.Gives op (.curve curve) ∧
            curve.IsRing tol (Sampling.circle m radius s.settings.curveSegments) ∧
            ∀ u ∈ curve.vertices, distance u m = radius := by
  intro found
  have hok {m : Coord ℝ} (hm : found = .ok m) : Line.Equidistant m a b c :=
    ((Line.circumcenter_eq_ok_iff hcoincidence hparallel).1 hm).2.2
  refine ⟨Line.exists_circumcenter_iff hcoincidence hparallel, fun m hm => ⟨hok hm, fun q hq => ?_⟩,
    Line.exists_circumcenter_error hcoincidence hparallel, ?_⟩
  · exact Line.eq_of_equidistant (Line.cross_ne_zero_of_circumcenter hcoincidence hparallel hm)
      (hok hm) hq
  · rintro s hs rfl p q r name hp hq hr op v hv
    obtain ⟨m, curve, hm, hgives, hring⟩ := exists_gives_of_circleThrough hs.indexed hp hq hr hv
    have hpos := Line.distance_center_pos hcoincidence hparallel hm
    obtain ⟨hsecond, hthird⟩ := (hok hm).distance_eq
    refine ⟨m, distance a m, curve, hm, hpos, rfl, hsecond, hthird, hgives, hring, fun u hu => ?_⟩
    rw [hring.vertices_eq, Ring.mem_close_iff] at hu
    exact Sampling.distance_of_mem_circle hpos.le hu

omit [Numeral ℝ] in
/-- A right triangle has neither a short side nor a small angle. -/
theorem verdicts_of_right_triangle :
    let tol : Tolerance ℝ := .standard
    let a : Coord ℝ := ⟨0, 0⟩
    let b : Coord ℝ := ⟨4, 0⟩
    let c : Coord ℝ := ⟨0, 3⟩
    0 < tol.coincidence ∧ 0 < tol.parallel ∧
      ¬(Line.Near tol a b ∨ Line.Near tol b c ∨ Line.Near tol c a) ∧
      ¬Line.Flat tol a b c ∧ ¬Line.Flat tol b c a ∧ ¬Line.Flat tol c a b := by
  intro tol a b c
  have hcoincidence : tol.coincidence = 1 / 10 ^ 9 := Exact.coincidence_standard_eq_div
  have hparallel : tol.parallel = 1 / 10 ^ 9 := hcoincidence
  have hab : distance a b = 4 := Line.distance_eq_of_square (by norm_num) (by norm_num [a, b])
  have hbc : distance b c = 5 := Line.distance_eq_of_square (by norm_num) (by norm_num [b, c])
  have hca : distance c a = 3 := Line.distance_eq_of_square (by norm_num) (by norm_num [c, a])
  refine ⟨by norm_num [hcoincidence], by norm_num [hparallel], ?_, ?_, ?_, ?_⟩
  · rw [Line.Near, Line.Near, Line.Near, hab, hbc, hca, hcoincidence]
    norm_num
  · rw [Line.Flat, hab, hbc, hparallel, Exact.cross_eq]
    norm_num [a, b, c, Exact.sub_eq]
  · rw [Line.Flat, hbc, hca, hparallel, Exact.cross_eq]
    norm_num [a, b, c, Exact.sub_eq]
  · rw [Line.Flat, hca, hab, hparallel, Exact.cross_eq]
    norm_num [a, b, c, Exact.sub_eq]

omit [Numeral ℝ] in
/-- Three positions with a center have a circle in a new session. -/
theorem perform_circleThrough_new (hcenter : Line.circumcenter .standard a b c = .ok m) :
    letI := Exact.decimals
    ((new .standard : Session ℝ).perform
      (.circleThrough (.position a) (.position b) (.position c) (some "k"))).1 =
      .ok (.name "k") := by
  let _ := Exact.decimals
  obtain ⟨hcoincidence, hparallel, -⟩ := verdicts_of_right_triangle
  rw [perform_circleThrough_of_ok (Reachable.new .standard).indexed rfl rfl rfl hcenter
      (Line.distance_center_pos hcoincidence hparallel hcenter),
    nameFor_of_requireFree (Registry.requireFree_empty (by decide))]
  rfl

omit [Numeral ℝ] in
/-- The circle around a right triangle. -/
theorem circleThrough_equidistant_of_right_triangle :
    letI := Exact.decimals
    let s : Session ℝ := new .standard
    let tol := s.settings.tolerance
    let op : Operation ℝ :=
      .circleThrough (.position ⟨0, 0⟩) (.position ⟨4, 0⟩) (.position ⟨0, 3⟩) (some "k")
    0 < tol.coincidence ∧ 0 < tol.parallel ∧ s.Reachable ∧
      (s.perform op).1 = .ok (.name "k") ∧
      Line.circumcenter tol ⟨0, 0⟩ ⟨4, 0⟩ ⟨0, 3⟩ = .ok ⟨2, 3 / 2⟩ ∧
      ∃ curve, s.Gives op (.curve curve) ∧ ∀ u ∈ curve.vertices, distance u ⟨2, 3 / 2⟩ = 5 / 2 := by
  let _ := Exact.decimals
  intro s tol op
  have hs : s.Reachable := .new _
  obtain ⟨hcoincidence, hparallel, hfar, hflat, -⟩ := verdicts_of_right_triangle
  obtain ⟨-, -, -, hdrawn⟩ := circleThrough_equidistant hcoincidence hparallel
    ⟨0, 0⟩ ⟨4, 0⟩ ⟨0, 3⟩
  have hequal : Line.Equidistant ⟨2, 3 / 2⟩ ⟨0, 0⟩ ⟨4, 0⟩ ⟨0, 3⟩ := by
    constructor <;> norm_num [Coord.normSquared]
  have hfound : Line.circumcenter tol ⟨0, 0⟩ ⟨4, 0⟩ ⟨0, 3⟩ = .ok ⟨2, 3 / 2⟩ :=
    (Line.circumcenter_eq_ok_iff hcoincidence hparallel).2
      ⟨fun h => hfar (h.imp_right .inl), hflat, hequal⟩
  have hok : (s.perform op).1 = .ok (.name "k") := perform_circleThrough_new hfound
  refine ⟨hcoincidence, hparallel, hs, hok, hfound, ?_⟩
  obtain ⟨m, radius, curve, hm, -, hradius, -, -, hgives, -, hvertices⟩ :=
    hdrawn s hs rfl _ _ _ (some "k") rfl rfl rfl _ hok
  cases hm.symm.trans hfound
  have hlength : radius = 5 / 2 := by
    rw [← hradius]
    exact Line.distance_eq_of_square (by norm_num) (by norm_num)
  exact ⟨curve, hgives, hlength ▸ hvertices⟩

/-! ## Orders -/

/-- **When the order of the points does not matter.** In exact arithmetic with positive tolerances,
in every session that operations lead to, three points are refused as degenerate exactly if a side
at the second one is too short, and else as parallel exactly if the angle there is too small; so a
first and a third point that coincide are refused as parallel, unless the second one is as near. The
way back is always judged alike, and one circle is drawn in all orders that are not refused. All six
orders lead to the same answer and the same session exactly if two of the three sides are too short,
or none is and either all three angles are too small or none of them. -/
theorem Reachable.circleThrough_orders_iff (hs : s.Reachable)
    (hcoincidence : 0 < s.settings.tolerance.coincidence)
    (hparallel : 0 < s.settings.tolerance.parallel) (hp : s.registry.position p = .ok a)
    (hq : s.registry.position q = .ok b) (hr : s.registry.position r = .ok c)
    (name : Option String) :
    let tol := s.settings.tolerance
    let drawn x y z := s.perform (.circleThrough x y z name)
    ((∃ reason, (drawn p q r).1 = .error (.degenerateLine reason)) ↔
        Line.Near tol a b ∨ Line.Near tol b c) ∧
      ((drawn p q r).1 = .error .parallelLines ↔
        ¬(Line.Near tol a b ∨ Line.Near tol b c) ∧ Line.Flat tol a b c) ∧
      (a = c → ¬Line.Near tol a b → (drawn p q r).1 = .error .parallelLines) ∧
      drawn r q p = drawn p q r ∧
      (∃ m radius, ∀ x y z, [x, y, z].Perm [p, q, r] →
        (∃ reason, (drawn x y z).1 = .error (.degenerateLine reason)) ∨
          (drawn x y z).1 = .error .parallelLines ∨
          s.DrawsOval (.circleThrough x y z name) ⟨m, radius, radius, Scalar.zero⟩) ∧
      ((∀ x y z, [x, y, z].Perm [p, q, r] → drawn x y z = drawn p q r) ↔
        Line.JudgedAlike tol a b c) := by
  intro tol drawn
  have hline := circleThrough_parallelLines_iff hs.indexed hcoincidence hparallel hp hq hr name
  refine ⟨circleThrough_degenerateLine_iff hs.indexed hcoincidence hparallel hp hq hr name, hline,
    fun hends hfar => ?_,
    perform_circleThrough_reverse hs.indexed hcoincidence hparallel hp hq hr name,
    exists_common_circle hs.indexed hcoincidence hparallel hp hq hr name,
    forall_circleThrough_eq_iff hs.indexed hcoincidence hparallel hp hq hr name⟩
  subst hends
  rw [hline, Line.near_comm (a := a) (b := b), or_self]
  exact ⟨hfar, Line.flat_back hcoincidence hparallel hfar⟩

omit [Numeral ℝ] in
/-- A right triangle has one circle in all orders of its corners. -/
theorem circleThrough_orders_of_right_triangle :
    letI := Exact.decimals
    let s : Session ℝ := new .standard
    let tol := s.settings.tolerance
    let drawn x y z := s.perform (.circleThrough x y z (some "k"))
    let p : Reference ℝ := .position ⟨0, 0⟩
    let q : Reference ℝ := .position ⟨4, 0⟩
    let r : Reference ℝ := .position ⟨0, 3⟩
    s.Reachable ∧ 0 < tol.coincidence ∧ 0 < tol.parallel ∧
      ∀ x y z, [x, y, z].Perm [p, q, r] → drawn x y z = drawn p q r := by
  let _ := Exact.decimals
  intro s tol drawn p q r
  have hs : s.Reachable := .new _
  obtain ⟨hcoincidence, hparallel, hfar, hfirst, hsecond, hthird⟩ := verdicts_of_right_triangle
  obtain ⟨-, -, -, -, -, horders⟩ := Reachable.circleThrough_orders_iff hs hcoincidence hparallel
    (p := p) (q := q) (r := r) rfl rfl rfl (some "k")
  refine ⟨hs, hcoincidence, hparallel, horders.2 (.inr ⟨hfar, ?_, ?_⟩)⟩
  · exact iff_of_false hfirst hsecond
  · exact iff_of_false hsecond hthird

omit [Numeral ℝ] in
/-- The angle at the far corner of a right triangle with one short leg is refused, although no side
and no other angle is. -/
theorem verdicts_of_needle :
    let tol : Tolerance ℝ := .standard
    let a : Coord ℝ := ⟨0, 1⟩
    let b : Coord ℝ := ⟨0, 0⟩
    let c : Coord ℝ := ⟨2 ^ 34, 0⟩
    ¬(Line.Near tol a b ∨ Line.Near tol b c ∨ Line.Near tol c a) ∧ ¬Line.Flat tol a b c ∧
      Line.Flat tol a c b := by
  intro tol a b c
  have hcoincidence : tol.coincidence = 1 / 10 ^ 9 := Exact.coincidence_standard_eq_div
  have hparallel : tol.parallel = 1 / 10 ^ 9 := hcoincidence
  have hab : distance a b = 1 := Line.distance_eq_of_square (by norm_num) (by norm_num [a, b])
  have hbc : distance b c = 2 ^ 34 := Line.distance_eq_of_square (by norm_num) (by norm_num [b, c])
  -- the hypotenuse is longer than the long leg
  have hhypotenuse : 2 ^ 34 ≤ distance a c := by
    refine Real.le_sqrt_of_sq_le ?_
    norm_num [a, c, Exact.sub_eq, Coord.normSquared]
  have hca : distance c a = distance a c := Line.norm_sub_comm a c
  have hcb : distance c b = 2 ^ 34 := (Line.norm_sub_comm b c).trans hbc
  refine ⟨?_, ?_, ?_⟩
  · rw [Line.Near, Line.Near, Line.Near, hab, hbc, hca, hcoincidence, not_or, not_or]
    exact ⟨by norm_num, by norm_num, by linarith⟩
  · rw [Line.Flat, hab, hbc, hparallel, Exact.cross_eq]
    norm_num [a, b, c, Exact.sub_eq]
  · have hcross : |(c - a).cross (b - c)| = 2 ^ 34 := by
      norm_num [a, b, c, Exact.cross_eq, Exact.sub_eq]
    rw [Line.Flat, hcb, hparallel, hcross]
    exact lt_mul_of_one_lt_left (by norm_num) (by linarith)

omit [Numeral ℝ] in
/-- A first and a third point that are one are refused as parallel, and as degenerate next to each
other. A right triangle with one short leg has a circle, with the right angle in the middle; with
the far corner in the middle it is refused as parallel. -/
theorem circleThrough_refused_in_other_order :
    letI := Exact.decimals
    let s : Session ℝ := new .standard
    let drawn (a b c : Coord ℝ) :=
      (s.perform (.circleThrough (.position a) (.position b) (.position c) (some "k"))).1
    drawn ⟨0, 0⟩ ⟨1, 0⟩ ⟨0, 0⟩ = .error .parallelLines ∧
      drawn ⟨0, 0⟩ ⟨0, 0⟩ ⟨1, 0⟩ = .error (.degenerateLine .zeroLength) ∧
      drawn ⟨0, 1⟩ ⟨0, 0⟩ ⟨2 ^ 34, 0⟩ = .ok (.name "k") ∧
      drawn ⟨0, 1⟩ ⟨2 ^ 34, 0⟩ ⟨0, 0⟩ = .error .parallelLines := by
  let _ := Exact.decimals
  intro s drawn
  obtain ⟨hcoincidence, hparallel, -⟩ := verdicts_of_right_triangle
  obtain ⟨hneedle, hright, hfar⟩ := verdicts_of_needle
  have hrefused {a b c : Coord ℝ} {e : ConstructionError}
      (h : Line.circumcenter .standard a b c = .error e) : drawn a b c = .error e :=
    perform_circleThrough_of_error rfl rfl rfl h
  have hunit : distance (⟨0, 0⟩ : Coord ℝ) ⟨1, 0⟩ = 1 :=
    Line.distance_eq_of_square (by norm_num) (by norm_num)
  have hlong : ¬Line.Near .standard (⟨0, 0⟩ : Coord ℝ) ⟨1, 0⟩ := by
    rw [Line.Near, hunit, Exact.coincidence_standard_eq_div]
    norm_num
  have hshort : Line.Near .standard (⟨0, 0⟩ : Coord ℝ) ⟨0, 0⟩ := by
    rw [Line.Near, Line.distance_eq_of_square le_rfl (by norm_num)]
    exact hcoincidence
  refine ⟨hrefused ?_, hrefused ?_, ?_, hrefused ?_⟩
  · rw [Line.circumcenter_eq_parallelLines_iff hcoincidence hparallel,
      Line.near_comm (a := ⟨0, 0⟩), or_self]
    exact ⟨hlong, Line.flat_back hcoincidence hparallel hlong⟩
  · rw [Line.circumcenter_eq_degenerateLine_iff hcoincidence hparallel]
    exact .inl hshort
  · rcases Line.circumcenter_cases hcoincidence hparallel ⟨0, 1⟩ ⟨0, 0⟩ ⟨2 ^ 34, 0⟩ with
      ⟨hnear, -⟩ | ⟨-, hflat, -⟩ | ⟨-, -, -, m, hm, -⟩
    · exact absurd (hnear.imp_right .inl) hneedle
    · exact absurd hflat hright
    · exact perform_circleThrough_new hm
  · rw [Line.circumcenter_eq_parallelLines_iff hcoincidence hparallel]
    refine ⟨fun hnear => hneedle ?_, hfar⟩
    rw [Line.near_comm (a := ⟨2 ^ 34, 0⟩), Line.near_comm (a := ⟨0, 0⟩)] at hnear
    exact hnear.elim (fun h => .inr (.inr h)) fun h => .inr (.inl h)

end Session

end Straightedge
