import Straightedge.Proofs.Session.Outlines

/-! # Corners of closed curves

A closed curve is drawn through its vertices, of which the last one is to repeat the first. Whether
the vertices that an operation has found already end that way is decided by the tolerance alone. The
samples of an oval are meant to end that way, and do not if the oval is large. The corners of a
regular polygon are meant not to, and do if its sides are short.

* **`Session.Reachable.corners_of_regular`**: which corners a regular polygon has.
* **`Session.Reachable.corners_of_regular_of_exact`**: how long its sides are to be.
* **`Session.Reachable.corners_of_oval_of_exact`**: as many as are set are the corners of an oval.
* **`Session.Reachable.corners_of_oval`**: how many there are in binary64 arithmetic. -/

namespace Straightedge.Session

variable {α : Type} [Scalar α] [Numeral α] {s : Session α} {op : Operation α}

/-! ## Regular polygons -/

/-- A regular polygon that is drawn gives the ring of its corners, with one corner less if the last
coincides with the first. -/
theorem exists_gives_of_drawsRegular (hs : s.registry.Indexed) {center vertex : Reference α}
    {n : Nat} {direction : Option (Reference α)} {name : Option String} {v : Value α}
    (hok : (s.perform (.regularPolygon center vertex n direction name)).1 = .ok v) :
    let op := Operation.regularPolygon center vertex n direction name
    ∃ g curve, s.DrawsRegular op g ∧ 3 ≤ n ∧ g.count = n ∧ s.Gives op (.curve curve) ∧
      curve.IsRing s.settings.tolerance g.corners ∧ ∀ k, curve.HasCorners k ↔
        k = if Ring.isClosed s.settings.tolerance g.corners then n - 1 else n := by
  intro op
  obtain ⟨vertices, curve, houtlines, hgives, hcurve⟩ := exists_gives_of_perform hs rfl hok
  cases houtlines with
  | oval hoval => cases hoval
  | @regular _ g hregular =>
    obtain ⟨hmany, hcount⟩ : 3 ≤ n ∧ g.count = n := by
      cases hregular with
      | regularPolygon _ hmany => exact ⟨hmany, rfl⟩
    have hne : g.corners ≠ [] := by
      rw [← List.length_pos_iff, RegularPolygon.length_corners]
      omega
    refine ⟨g, curve, hregular, hmany, hcount, hgives, hcurve, fun k => ?_⟩
    rw [hcurve.hasCorners_iff hne, RegularPolygon.length_corners, hcount]

/-- **Which corners a regular polygon has.** In every session that operations lead to, with any
settings, a regular polygon that is drawn is a closed curve. If its last corner does not coincide
with the first, all its corners are corners of the curve, which repeats the first one as its last
vertex. If it does, the last corner counts as that repetition, and the curve is a corner short. -/
theorem Reachable.corners_of_regular (hs : s.Reachable) {center vertex : Reference α} {n : Nat}
    {direction : Option (Reference α)} {name : Option String} {v : Value α}
    (hok : (s.perform (.regularPolygon center vertex n direction name)).1 = .ok v) :
    let op := Operation.regularPolygon center vertex n direction name
    ∃ g curve, s.DrawsRegular op g ∧ s.Gives op (.curve curve) ∧
      ((curve.HasCorners n ∧ curve.corners = g.corners) ↔
        s.settings.tolerance.same (g.corner 0) (g.corner (n - 1)) = false) ∧
      (s.settings.tolerance.same (g.corner 0) (g.corner (n - 1)) = true →
        curve.HasCorners (n - 1) ∧ curve.corners = g.corners.dropLast ∧
          curve.vertices = g.corners) := by
  intro op
  obtain ⟨g, curve, hregular, hmany, hcount, hgives, hcurve, hcorners⟩ :=
    exists_gives_of_drawsRegular hs.indexed hok
  have hends : Ring.isClosed s.settings.tolerance g.corners =
      s.settings.tolerance.same (g.corner 0) (g.corner (n - 1)) := by
    rw [RegularPolygon.isClosed_corners _ (by omega), hcount]
  refine ⟨g, curve, hregular, hgives, ?_, ?_⟩
  · rw [hcorners, ← hends]
    constructor
    · rintro ⟨hn, -⟩
      by_contra hsame
      rw [if_pos (Bool.eq_true_of_not_eq_false hsame)] at hn
      omega
    · intro hsame
      refine ⟨by rw [hsame]; rfl, ?_⟩
      rw [hcurve.corners_eq, Ring.openRing_of_not_isClosed hsame]
  · intro hsame
    rw [← hends] at hsame
    refine ⟨(hcorners _).2 (if_pos hsame).symm, ?_, ?_⟩
    · rw [hcurve.corners_eq, Ring.openRing, if_pos hsame]
    · rw [hcurve.vertices_eq, Ring.close_of_isClosed hsame]

/-- **How long the sides of a regular polygon are to be, in exact arithmetic.** A triangle or a
square that is drawn has all its corners, and so has a polygon whose sides are longer than the
tolerance by the square root of two. A polygon whose sides are shorter than the tolerance is a
corner short. In between the direction of the last side decides. -/
theorem Reachable.corners_of_regular_of_exact [Numeral ℝ] {s : Session ℝ} (hs : s.Reachable)
    {center vertex : Reference ℝ} {n : Nat} {direction : Option (Reference ℝ)}
    {name : Option String} {v : Value ℝ}
    (hok : (s.perform (.regularPolygon center vertex n direction name)).1 = .ok v) :
    let op := Operation.regularPolygon center vertex n direction name
    let eps := s.settings.tolerance.coincidence
    ∃ g curve, s.DrawsRegular op g ∧ s.Gives op (.curve curve) ∧
      (n ≤ 4 ∨ √2 * eps ≤ g.side → curve.HasCorners n) ∧
      (g.side < eps → curve.HasCorners (n - 1)) ∧
      (curve.HasCorners n ↔
        eps ≤ |g.side * Real.sin g.middle| ∨ eps ≤ |g.side * Real.cos g.middle|) := by
  intro op eps
  obtain ⟨g, curve, hregular, hmany, hcount, hgives, -, hcorners⟩ :=
    exists_gives_of_drawsRegular hs.indexed hok
  have hradius : eps ≤ g.radius ∧ 0 ≤ g.radius := by
    cases hregular with
    | regularPolygon _ _ _ _ _ hradius =>
      exact ⟨Exact.lt_eq_false_iff.1 hradius, Real.sqrt_nonneg _⟩
  have htwo : 2 ≤ g.count := by omega
  refine ⟨g, curve, hregular, hgives, ?_, ?_, ?_⟩
  · intro hlong
    have hside : √2 * eps ≤ g.side := by
      rcases hlong with hfew | hside
      · exact (mul_le_mul_of_nonneg_left hradius.1 (by positivity)).trans
          (RegularPolygon.sqrt_two_mul_radius_le_side (hcount.symm ▸ hmany) (hcount.symm ▸ hfew)
            hradius.2)
      · exact hside
    rw [hcorners, RegularPolygon.not_isClosed_corners htwo hside]
    rfl
  · intro hside
    rw [hcorners, RegularPolygon.isClosed_corners_of_side_lt htwo hradius.2 hside]
    rfl
  · have hends := @RegularPolygon.isClosed_corners_iff g s.settings.tolerance htwo
    rw [← not_lt, ← not_lt, ← not_and_or, ← hends, hcorners]
    constructor
    · intro hn hshort
      rw [if_pos hshort] at hn
      omega
    · exact fun hopen => (if_neg hopen).symm

/-- A regular polygon of finite corners, one of them given, is drawn in a new session. -/
theorem perform_regularPolygon_new {settings : Settings α} {center vertex : Coord α} {n : Nat}
    {name : String} (hmany : 3 ≤ n) (hlimit : n ≤ vertexLimit) (hcenter : center.isFinite = true)
    (hvertex : vertex.isFinite = true) (hheading : (vertex - center).isFinite = true)
    (hradius : settings.tolerance.tiny (distance center vertex) = false)
    (hfinite : (Sampling.regularPolygon center (distance center vertex)
      (vertex - center).heading n).all Coord.isFinite = true) (hname : name ≠ "") :
    ((new settings).perform (.regularPolygon (.position center) (.position vertex) n none
      (some name))).1 = .ok (.name name) := by
  have hfree := Registry.requireFree_empty (α := α) hname
  have hplan : ∃ curve, Operation.plan (new settings) (.regularPolygon (.position center)
      (.position vertex) n none (some name)) = .ok (.addOne name (.curve curve)) := by
    have hnamed := nameFor_of_requireFree (s := new settings) hfree "RegularPolygon"
    have hrequire : Curve.requireVertices (Sampling.regularPolygon center (distance center vertex)
        (vertex - center).heading n) = .ok () := by
      refine Curve.requireVertices_eq_ok_iff.2 ⟨?_, List.all_eq_true.1 hfinite⟩
      rw [Sampling.length_regularPolygon]
      omega
    simp only [Operation.plan, regularPolygon, ↓ite_throw_bind_eq_ok_iff, bind_eq_ok_iff,
      pure_eq_ok_iff, Curve.ring_eq_ok_iff]
    refine ⟨_, Nat.not_lt.2 hmany, (), requireVertexCount_eq_ok_iff.2 hlimit, center,
      if_pos hcenter, vertex, if_pos hvertex, ?_, vertex - center, rfl, ?_, name, hnamed, _,
      ⟨hrequire, rfl⟩, rfl⟩
    · exact Bool.eq_false_iff.1 hradius
    · have hnorm : settings.tolerance.tiny (vertex - center).norm = false := hradius
      rw [hheading, show (new settings).settings.tolerance.tiny _ = false from hnorm]
      exact Bool.false_ne_true
  obtain ⟨curve, hplan⟩ := hplan
  obtain ⟨r, -, hperform⟩ := exists_perform_addOne hplan hfree
  rw [hperform]

theorem distance_origin {r : ℝ} (hr : 0 ≤ r) : distance (⟨0, 0⟩ : Coord ℝ) ⟨r, 0⟩ = r := by
  show √((r - 0) * (r - 0) + (0 - 0) * (0 - 0)) = r
  rw [sub_zero, sub_zero, mul_zero, add_zero, Real.sqrt_mul_self hr]

/-- The operation that draws a hexagon. -/
def drawHexagon (r : ℝ) : Operation ℝ :=
  .regularPolygon (.position ⟨0, 0⟩) (.position ⟨r, 0⟩) 6 none (some "h")

theorem perform_hexagon [Numeral ℝ] {r : ℝ} (hr : 10 ^ (-9 : ℤ) ≤ r) :
    ((new .standard : Session ℝ).perform (drawHexagon r)).1 = .ok (.name "h") := by
  have hpos : 0 ≤ r := le_trans (by positivity) hr
  refine perform_regularPolygon_new (by decide) (by decide) rfl rfl rfl ?_ ?_ (by decide)
  · rw [distance_origin hpos, Tolerance.tiny, Exact.lt_eq_false_iff]
    exact Exact.coincidence_standard.trans_le hr
  · exact List.all_eq_true.2 fun _ _ => rfl

theorem DrawsRegular.eq_hexagon [Numeral ℝ] {s : Session ℝ} {r : ℝ} (hr : 0 < r)
    {g : RegularPolygon ℝ} (h : s.DrawsRegular (drawHexagon r) g) : g = .hexagon r := by
  obtain ⟨_, -, -, hcenter, hvertex, -, hheading⟩ := h
  cases hcenter
  cases hvertex
  cases hheading
  rw [distance_origin hr.le, RegularPolygon.hexagon]
  congr 1
  show Complex.arg ⟨r - 0, 0 - 0⟩ = 0
  rw [sub_zero, sub_zero]
  exact Complex.arg_ofReal_of_nonneg hr.le

/-- The hexagon of radius one has six corners. -/
theorem corners_of_unit_hexagon :
    letI := Exact.decimals
    let s : Session ℝ := new .standard
    s.Reachable ∧ (s.perform (drawHexagon 1)).1 = .ok (.name "h") ∧
      ∃ curve, s.Gives (drawHexagon 1) (.curve curve) ∧ curve.HasCorners 6 := by
  let _ := Exact.decimals
  intro s
  have hs : s.Reachable := .new _
  have hok : (s.perform (drawHexagon 1)).1 = .ok (.name "h") := perform_hexagon (by norm_num)
  obtain ⟨g, curve, hregular, hgives, hcorners, -⟩ := hs.corners_of_regular hok
  refine ⟨hs, hok, curve, hgives, (hcorners.2 ?_).1⟩
  rw [hregular.eq_hexagon one_pos]
  refine (RegularPolygon.isClosed_corners .standard (g := .hexagon 1) (by decide)).symm.trans ?_
  refine RegularPolygon.not_isClosed_corners (by decide) ?_
  rw [RegularPolygon.side_hexagon, Exact.coincidence_standard]
  have hroot : √2 ≤ (2 : ℝ) := Real.sqrt_le_iff.2 ⟨by norm_num, by norm_num⟩
  norm_num
  linarith

/-- The hexagon of radius one part in a billion has five corners. -/
theorem corners_of_small_hexagon :
    letI := Exact.decimals
    let s : Session ℝ := new .standard
    let r : ℝ := 10 ^ (-9 : ℤ)
    ∃ curve, s.Gives (drawHexagon r) (.curve curve) ∧ curve.vertices.length = 6 ∧
      curve.corners.length = 5 := by
  let _ := Exact.decimals
  intro s r
  have hok : (s.perform (drawHexagon r)).1 = .ok (.name "h") := perform_hexagon le_rfl
  obtain ⟨g, curve, hregular, -, -, hgives, -, hcorners⟩ :=
    exists_gives_of_drawsRegular (Reachable.new _).indexed hok
  rw [hregular.eq_hexagon (by positivity)] at hcorners
  have hends : Ring.isClosed s.settings.tolerance (RegularPolygon.hexagon r).corners = true := by
    refine (RegularPolygon.isClosed_corners_iff (by decide)).2 ?_
    rw [RegularPolygon.side_hexagon, RegularPolygon.middle_hexagon, Real.sin_neg, Real.cos_neg,
      Real.sin_pi_div_six, Real.cos_pi_div_six]
    have hr : 0 < r := by positivity
    have hroot : √3 < (2 : ℝ) := (Real.sqrt_lt' (by norm_num)).2 (by norm_num)
    rw [abs_of_neg (by linarith), abs_of_pos (by positivity)]
    show _ < (Tolerance.standard : Tolerance ℝ).coincidence ∧
      _ < (Tolerance.standard : Tolerance ℝ).coincidence
    rw [Exact.coincidence_standard]
    constructor
    · show -(r * -(1 / 2)) < r
      linarith
    · exact mul_lt_of_lt_one_right hr (by linarith)
  exact ⟨curve, hgives, ((hcorners 5).2 (if_pos hends).symm).2⟩

/-! ## Ovals -/

/-- An operation that draws an oval and succeeds gives the ring of its samples, with one corner more
than is set if the last does not coincide with the first. -/
theorem exists_gives_of_drawsOval (hs : s.registry.Indexed) (hdraws : op.drawsOval = true)
    {v : Value α} (hok : (s.perform op).1 = .ok v) :
    let n := max s.settings.curveSegments 3
    ∃ o curve, s.DrawsOval op o ∧ s.settings.curveSegments ≤ vertexLimit ∧
      s.Gives op (.curve curve) ∧ ∀ k, curve.HasCorners k ↔ k =
        if Ring.isClosed s.settings.tolerance (o.samples s.settings.curveSegments) then n
        else n + 1 := by
  intro n
  obtain ⟨o, curve, hoval, hsegments, hgives, hcurve⟩ := exists_oval_of_perform hs hdraws hok
  have hne : o.samples s.settings.curveSegments ≠ [] := by
    rw [← List.length_pos_iff, Oval.length_samples]
    omega
  refine ⟨o, curve, hoval, hsegments, hgives, fun k => ?_⟩
  rw [hcurve.hasCorners_iff hne, Oval.length_samples]
  rfl

/-- **How many corners an oval has, in exact arithmetic.** In every session that operations lead to,
as long as its tolerance is not zero, a circle or an ellipse that is drawn has the number of corners
that is set, but at least three, whatever its size: only rounding makes one more. -/
theorem Reachable.corners_of_oval_of_exact [Numeral ℝ] {s : Session ℝ} (hs : s.Reachable)
    (htol : 0 < s.settings.tolerance.coincidence) {op : Operation ℝ} (hdraws : op.drawsOval = true)
    {v : Value ℝ} (hok : (s.perform op).1 = .ok v) :
    ∃ curve, s.Gives op (.curve curve) ∧ curve.HasCorners (max s.settings.curveSegments 3) := by
  obtain ⟨o, curve, -, -, hgives, hcorners⟩ := exists_gives_of_drawsOval hs.indexed hdraws hok
  have hends := Oval.isClosed_samples_of_exact htol o s.settings.curveSegments
  exact ⟨curve, hgives, (hcorners _).2 (if_pos hends).symm⟩

/-- An oval that is drawn is turned by a finite angle. -/
theorem DrawsOval.isFinite_degrees {cos sin : Float → Float} :
    letI := Binary64.turning cos sin
    ∀ {s : Session Float} {op : Operation Float} {o : Oval Float}, s.DrawsOval op o →
      o.degrees.isFinite = true := by
  let _ := Binary64.turning cos sin
  intro s op o h
  have hzero : (Float.ofNat 0).isFinite = true := by decide +kernel
  cases h with
  | circle => exact hzero
  | circleThrough => exact hzero
  | ellipse _ _ hdegrees => exact hdegrees

/-- **How many corners an oval has, in binary64 arithmetic.** In every session that operations lead
to, with any settings and whatever functions cosine and sine are, a circle or an ellipse that is
drawn is a closed curve. It has the number of corners that is set, but at least three, exactly if
its points at the angle zero and at a full turn coincide, and one more if they do not. By the
standard tolerance they do if the oval is of moderate size, at every angle, and cosine and sine are
what ovals need. -/
theorem Reachable.corners_of_oval (cos sin : Float → Float) {op : Operation Float}
    (hdraws : op.drawsOval = true) :
    letI := Binary64.turning cos sin
    ∀ s : Session Float, s.Reachable → ∀ v, (s.perform op).1 = .ok v →
      let tol := s.settings.tolerance
      let n := max s.settings.curveSegments 3
      ∃ o curve, s.DrawsOval op o ∧ s.Gives op (.curve curve) ∧
        (curve.HasCorners n ↔ tol.same (o.point (Scalar.ofNat 0)) (o.point Scalar.tau) = true) ∧
        (tol.same (o.point (Scalar.ofNat 0)) (o.point Scalar.tau) = false →
          curve.HasCorners (n + 1)) ∧
        (Binary64.Turns cos sin → tol = .standard → o.Moderate → curve.HasCorners n) := by
  let _ := Binary64.turning cos sin
  intro s hs v hok tol n
  obtain ⟨o, curve, hoval, hsegments, hgives, hcorners⟩ :=
    exists_gives_of_drawsOval hs.indexed hdraws hok
  rw [o.isClosed_samples_iff tol hsegments] at hcorners
  have hmeet (hsame : tol.same (o.point (Scalar.ofNat 0)) (o.point Scalar.tau) = true) :
      curve.HasCorners n := (hcorners n).2 (if_pos hsame).symm
  refine ⟨o, curve, hoval, hgives, ⟨?_, hmeet⟩, ?_, ?_⟩
  · rw [hcorners]
    intro hn
    by_contra hpart
    rw [if_neg hpart] at hn
    exact Nat.succ_ne_self _ hn.symm
  · intro hpart
    rw [hcorners, hpart]
    rfl
  · intro h hstandard ho
    refine hmeet ?_
    rw [hstandard]
    exact ho.same_ends h hoval.isFinite_degrees

/-- The oval of a circle whose center and radius are given. -/
theorem DrawsOval.eq_of_circle {center : Coord α} {radius : α} {name : Option String} {o : Oval α}
    (h : s.DrawsOval (.circle (.position center) (.radius radius) name) o) :
    o = ⟨center, radius, radius, Scalar.zero⟩ := by
  obtain ⟨_, hcenter, hradius⟩ := h
  cases hradius
  rw [Registry.position] at hcenter
  split at hcenter
  · cases hcenter
    rfl
  · cases hcenter

/-- A circle of finite samples is drawn in a new session. -/
theorem perform_circle_new {settings : Settings α} {center : Coord α} {radius : α} {name : String}
    (hcenter : center.isFinite = true) (hradius : Scalar.isFinite radius = true)
    (hpos : Scalar.le radius Scalar.zero = false) (hsegments : settings.curveSegments ≤ vertexLimit)
    (hfinite : (Sampling.circle center radius settings.curveSegments).all Coord.isFinite = true)
    (hname : name ≠ "") :
    ((new settings).perform (.circle (.position center) (.radius radius) (some name))).1 =
      .ok (.name name) := by
  have hfree := Registry.requireFree_empty (α := α) hname
  have hpositive : requirePositive "radius" radius = .ok () := by
    rw [requirePositive, hradius, hpos]
    rfl
  obtain ⟨curve, hcurve⟩ := exists_sampledCircle (s := new settings) center radius
    hsegments (nameFor_of_requireFree hfree "Circle") (List.all_eq_true.1 hfinite)
  have hplan : Operation.plan (new settings)
      (.circle (.position center) (.radius radius) (some name)) =
        .ok (.addOne name (.curve curve)) := by
    simp only [Operation.plan, circle, circleRadius, bind_eq_ok_iff, pure_eq_ok_iff]
    exact ⟨center, if_pos hcenter, radius, rfl, (), hpositive, hcurve⟩
  obtain ⟨r, -, hperform⟩ := exists_perform_addOne hplan hfree
  rw [hperform]

/-- The unit circle in three segments has three corners. -/
theorem corners_of_unit_circle :
    letI := Binary64.turning Binary64.thirdCos Binary64.thirdSin
    let s : Session Float := new { Settings.standard with curveSegments := 3 }
    let op : Operation Float := .circle (.position ⟨0, 0⟩) (.radius 1) (some "c")
    s.Reachable ∧ op.drawsOval = true ∧ (s.perform op).1 = .ok (.name "c") ∧
      ∃ curve, s.Gives op (.curve curve) ∧ curve.HasCorners 3 := by
  let _ := Binary64.turning Binary64.thirdCos Binary64.thirdSin
  intro s op
  have hs : s.Reachable := .new _
  have hok : (s.perform op).1 = .ok (.name "c") :=
    perform_circle_new (by decide +kernel) (by decide +kernel) (by decide +kernel) (by decide)
      (by decide +kernel) (by decide)
  obtain ⟨o, curve, hoval, hgives, -, -, hmoderate⟩ :=
    Reachable.corners_of_oval Binary64.thirdCos Binary64.thirdSin rfl s hs _ hok
  refine ⟨hs, rfl, hok, curve, hgives, hmoderate Binary64.turns_third rfl ?_⟩
  rw [hoval.eq_of_circle]
  have hone : Binary64.AtMost (.power 18) (1 : Float) := by
    refine Binary64.Within.mono Binary64.atMost_one ?_
    rw [Binary64.Bound.value_one, Binary64.Bound.value_power]
    norm_num
  exact ⟨.zero .positive, .zero .positive, hone, hone⟩

/-- A circle whose radius is ten million, in three segments, has four corners. -/
theorem corners_of_large_circle :
    letI := Binary64.turning Binary64.thirdCos Binary64.thirdSin
    let s : Session Float := new { Settings.standard with curveSegments := 3 }
    let op : Operation Float := .circle (.position ⟨0, 0⟩) (.radius 1e7) (some "c")
    s.settings.validate = .ok () ∧ ∃ curve, s.Gives op (.curve curve) ∧
      curve.vertices.length = 5 ∧ curve.corners.length = 4 := by
  let _ := Binary64.turning Binary64.thirdCos Binary64.thirdSin
  intro s op
  have hs : s.Reachable := .new _
  have hok : (s.perform op).1 = .ok (.name "c") :=
    perform_circle_new (by decide +kernel) (by decide +kernel) (by decide +kernel) (by decide)
      (by decide +kernel) (by decide)
  obtain ⟨o, curve, hoval, -, hgives, hcorners⟩ := exists_gives_of_drawsOval hs.indexed rfl hok
  rw [hoval.eq_of_circle] at hcorners
  -- the ends are farther apart than the tolerance
  have hends : Ring.isClosed (.standard : Tolerance Float)
      (Oval.samples ⟨⟨0, 0⟩, 1e7, 1e7, Scalar.zero⟩ 3) = false := by decide +kernel
  have hvalid : (s.settings.validate.toOption.any fun _ => true) = true := by decide +kernel
  obtain ⟨_, hvalidate, -⟩ := any_toOption_iff.1 hvalid
  exact ⟨hvalidate, curve, hgives, ((hcorners 4).2 (if_neg (Bool.eq_false_iff.1 hends)).symm).2⟩

end Straightedge.Session
