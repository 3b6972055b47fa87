import Straightedge.Binary64
import Straightedge.Proofs.Plane.Shoelace
import Straightedge.Proofs.Session.ClosedCurves
import Straightedge.Proofs.Session.Outlines

/-! # Two ways to the center of a polygon

The center of a polygon can be asked for by the name of the polygon or by the points through which
it was drawn. The first way opens the ring twice: its corners are the points without a repeated
first one, and their center is taken as that of a ring which may again repeat its first vertex. The
second way opens the ring once. So the ways part exactly where the second opening moves the center,
which takes a list of points that ends at its first point twice.

* **`Session.center_of_closed`**, **`Session.center_of_points`**: the centers that are found.
* **`Session.perform_midpoint_eq_iff`**: two centers are marked alike exactly if they are one.
* **`Session.polygon_centers_agree_of_exact_iff`**: when they part in exact arithmetic.
* **`Session.polygon_centers_agree_iff`**: when both ways lead to the same center. -/

namespace Straightedge.Session

variable {α : Type} [Scalar α] [Numeral α] {s : Session α}

/-! ## Centers -/

/-- The center of a polygon by its name is that of its corners. -/
theorem center_of_closed {p : String} {curve : Curve α} {q : Coord α}
    (hfind : s.registry.find p = .ok (.curve curve)) (hclosed : curve.closed = true)
    (hq : Ring.centroid? s.settings.tolerance curve.corners = some q) :
    s.center [.name p] = .ok q := by
  have hcurve : s.registry.curveAt (.name p) = .ok curve := bind_eq_ok_iff.2 ⟨_, hfind, rfl⟩
  rw [center, hcurve]
  simp only [bind, Except.bind, hclosed, Bool.not_true, Bool.false_eq_true, if_false, hq]
  rfl

/-- The center of three points or more is that of the ring that they span. -/
theorem center_of_points {refs : List (Reference α)} {points : List (Coord α)} {q : Coord α}
    (hmany : 3 ≤ refs.length) (hpoints : s.registry.positions refs = .ok points)
    (hq : Ring.centroid? s.settings.tolerance points = some q) : s.center refs = .ok q := by
  match refs, hmany with
  | a :: b :: c :: rest, _ =>
    rw [center, hpoints]
    · simp only [bind, Except.bind, hq]
      rfl
    all_goals simp

/-! ## Marks -/

/-- A center that is found is planned as a red point. -/
theorem plan_midpoint_of_center {refs : List (Reference α)} {q : Coord α}
    (h : s.center refs = .ok q) (label : Option String) :
    Operation.plan s (.midpoint refs label) =
      (s.nameFor label "M").map fun name => .addOne name (.dot q "red") := by
  rw [Operation.plan, midpoint, h]
  cases s.nameFor label "M" <;> rfl

/-- Without a wanted name a center that is found is marked. -/
theorem exists_perform_midpoint (hs : s.registry.Indexed) {refs : List (Reference α)} {q : Coord α}
    (h : s.center refs = .ok q) :
    ∃ r, s.registry.insert (s.registry.freshName "M") (.dot q "red") = .ok r ∧
      s.perform (.midpoint refs none) =
        (.ok (.name (s.registry.freshName "M")), { s with registry := r }) :=
  exists_perform_addOne (plan_midpoint_of_center h none) (hs.requireFree_freshName "M")

/-- A center that is found is given as a red point. -/
theorem gives_midpoint (hs : s.registry.Indexed) {refs : List (Reference α)} {q : Coord α}
    (h : s.center refs = .ok q) : s.Gives (.midpoint refs none) (.dot q "red") := by
  obtain ⟨r, hinsert, hperform⟩ := exists_perform_midpoint hs h
  refine ⟨_, by rw [hperform], ?_⟩
  rw [hperform]
  exact hs.find_insert hinsert

/-- **Two centers are marked alike, under every name, exactly if they are one.** -/
theorem perform_midpoint_eq_iff (hs : s.registry.Indexed) {refs refs' : List (Reference α)}
    {q q' : Coord α} (h : s.center refs = .ok q) (h' : s.center refs' = .ok q') :
    (∀ label, s.perform (.midpoint refs label) = s.perform (.midpoint refs' label)) ↔ q = q' := by
  constructor
  · intro hall
    obtain ⟨r, hinsert, hperform⟩ := exists_perform_midpoint hs h
    obtain ⟨r', hinsert', hperform'⟩ := exists_perform_midpoint hs h'
    -- the figures found under the generated name are the same
    have hsame := (hperform.symm.trans (hall none)).trans hperform'
    have hregistry : r = r' := congrArg (fun result => result.2.registry) hsame
    have hfound := hs.find_insert hinsert
    rw [hregistry, hs.find_insert hinsert'] at hfound
    injection hfound with hfigure
    injection hfigure with hmarker
    exact (congrArg Marker.coord hmarker).symm
  · rintro rfl label
    rw [perform_eq, perform_eq, plan_midpoint_of_center h, plan_midpoint_of_center h']

/-! ## Polygons -/

/-- After a polygon has been drawn through points, its name has the center of the points without a
repeated first one, and the references to the points have that of the points, as before. -/
theorem exists_centers_of_polygon (hs : s.registry.Indexed) {refs : List (Reference α)}
    {wanted : Option String} {p : String}
    (hpolygon : (s.perform (.polygon refs wanted)).1 = .ok (.name p)) :
    let s' := (s.perform (.polygon refs wanted)).2
    let tol := s.settings.tolerance
    ∃ points q q', s.registry.positions refs = .ok points ∧
      Ring.centroid? tol (Ring.openRing tol points) = some q ∧
      Ring.centroid? tol points = some q' ∧ s'.registry.Indexed ∧
      s'.center [.name p] = .ok q ∧ s'.center refs = .ok q' ∧ s.center refs = .ok q' := by
  intro s' tol
  obtain ⟨points, name, r, curve, houtlines, hname, hrequire, hclosed, hvertices, hinsert,
    hperform⟩ := exists_ring_of_perform hs rfl hpolygon
  cases hname
  obtain ⟨_, hmany, hpoints⟩ | hregular | hoval := houtlines
  case regular => cases hregular
  case oval => cases hoval
  have hne : points ≠ [] := by
    rintro rfl
    cases (Curve.requireVertices_eq_ok_iff.1 hrequire).1
  obtain ⟨q, hq⟩ := Ring.exists_centroid?_of_ne_nil tol (Ring.openRing_ne_nil tol hne)
  obtain ⟨q', hq'⟩ := Ring.exists_centroid?_of_ne_nil tol hne
  -- the corners of the polygon are the points, opened
  have hcorners : curve.corners = Ring.openRing tol points := by
    rw [Curve.corners, if_pos hclosed, hvertices, Ring.dropLast_close]
  have hsession : s' = { s with registry := r } := congrArg Prod.snd hperform
  refine ⟨points, q, q', hpoints, hq, hq', ?_, ?_, ?_, center_of_points hmany hpoints hq'⟩
  · rw [hsession]
    exact hs.insert hinsert
  · rw [hsession]
    exact center_of_closed (hs.find_insert hinsert) hclosed (hcorners ▸ hq)
  · rw [hsession]
    exact center_of_points hmany (hs.positions_insert hinsert hpoints) hq'

/-- **When both ways agree in exact arithmetic**, for points that end at their first one twice: both
centers are marked alike exactly if the area of the points is not negligible, or if the first point
is the mean of those in front of its repetitions. -/
theorem polygon_centers_agree_of_exact_iff [Numeral ℝ] {s : Session ℝ} (hs : s.Reachable)
    (hcoincidence : 0 < s.settings.tolerance.coincidence) (harea : 0 < s.settings.tolerance.area)
    {refs : List (Reference ℝ)} {wanted : Option String} {p : String}
    (hpolygon : (s.perform (.polygon refs wanted)).1 = .ok (.name p)) {first : Coord ℝ}
    {rest : List (Coord ℝ)}
    (hpoints : s.registry.positions refs = .ok (first :: rest ++ [first] ++ [first])) :
    let s' := (s.perform (.polygon refs wanted)).2
    let tol := s.settings.tolerance
    (∀ label, s'.perform (.midpoint [.name p] label) = s'.perform (.midpoint refs label)) ↔
      tol.area ≤ |Ring.signedArea tol (first :: rest ++ [first] ++ [first])| ∨
        Ring.mean? (first :: rest) = some first := by
  intro s' tol
  obtain ⟨_, q, q', hpoints', hq, hq', hs', hname, hrefs, -⟩ :=
    exists_centers_of_polygon hs.indexed hpolygon
  cases hpoints.symm.trans hpoints'
  rw [perform_midpoint_eq_iff hs' hname hrefs, ← Option.some_inj, ← hq, ← hq']
  exact Ring.centroid?_openRing_eq_iff hcoincidence harea first rest

/-- **When both ways to the center of a polygon agree.** In every session that operations lead to,
with any settings, let a polygon be drawn through points. Then neither its name nor the references
to the points fail to have a center: the name has that of the points without a repeated first one,
which is a ring that may be opened once more; the references have that of the points, as they had
before the polygon was drawn. The two are marked alike, under every name, exactly if these centers
are one; and they are unless the points still end where they start when the last one is left out. -/
theorem polygon_centers_agree_iff (hs : s.Reachable) {refs : List (Reference α)}
    {wanted : Option String} {p : String}
    (hpolygon : (s.perform (.polygon refs wanted)).1 = .ok (.name p)) :
    let s' := (s.perform (.polygon refs wanted)).2
    let tol := s.settings.tolerance
    ∃ points q q', s.registry.positions refs = .ok points ∧
      Ring.centroid? tol (Ring.openRing tol points) = some q ∧
      Ring.centroid? tol points = some q' ∧
      s'.Gives (.midpoint [.name p] none) (.dot q "red") ∧
      s'.Gives (.midpoint refs none) (.dot q' "red") ∧
      s.Gives (.midpoint refs none) (.dot q' "red") ∧
      ((∀ label, s'.perform (.midpoint [.name p] label) = s'.perform (.midpoint refs label)) ↔
        q = q') ∧
      (Ring.isClosed tol (Ring.openRing tol points) = false → q = q') := by
  intro s' tol
  obtain ⟨points, q, q', hpoints, hq, hq', hs', hname, hrefs, hbefore⟩ :=
    exists_centers_of_polygon hs.indexed hpolygon
  refine ⟨points, q, q', hpoints, hq, hq', gives_midpoint hs' hname, gives_midpoint hs' hrefs,
    gives_midpoint hs.indexed hbefore, perform_midpoint_eq_iff hs' hname hrefs, fun hopen => ?_⟩
  -- a ring that is open stays as it is when it is opened
  have hagree : Ring.centroid? tol (Ring.openRing tol points) = Ring.centroid? tol points := by
    rw [Ring.centroid?, Ring.openRing_of_not_isClosed hopen, Ring.centroid?]
  rw [hq, hq'] at hagree
  exact Option.some.inj hagree

/-- A closed ring of finite positions is drawn as a polygon in a new session. -/
theorem perform_polygon_new {ring : List (Coord Float)} (hlength : 3 ≤ ring.length)
    (hfinite : ring.all Coord.isFinite = true) (hclosed : Ring.isClosed .standard ring = true)
    {name : String} (hname : name ≠ "") :
    ((new .standard : Session Float).perform (.polygon (ring.map .position) (some name))).1 =
      .ok (.name name) := by
  have hfree := Registry.requireFree_empty (α := Float) hname
  obtain ⟨r, -, hperform⟩ := exists_perform_addOne (plan_polygon_of_isClosed (s := new .standard)
    hlength (List.all_eq_true.1 hfinite) hclosed hfree) hfree
  rw [hperform]

/-- Three points and the first one again: both ways lead to the same center. -/
theorem polygon_centers_agree_of_triangle :
    let s : Session Float := new .standard
    let refs : List (Reference Float) :=
      [⟨0, 0⟩, ⟨3, 0⟩, ⟨0, 3⟩, ⟨0, 0⟩].map Reference.position
    let s' := (s.perform (.polygon refs (some "t"))).2
    s.Reachable ∧ (s.perform (.polygon refs (some "t"))).1 = .ok (.name "t") ∧
      ∀ label, s'.perform (.midpoint [.name "t"] label) = s'.perform (.midpoint refs label) := by
  intro s refs s'
  have hpolygon : (s.perform (.polygon refs (some "t"))).1 = .ok (.name "t") :=
    perform_polygon_new (by decide) (by decide +kernel) (by decide +kernel) (by decide)
  refine ⟨.new _, hpolygon, ?_⟩
  obtain ⟨points, q, q', hpoints, -, -, -, -, -, hiff, hagree⟩ :=
    polygon_centers_agree_iff (.new _) hpolygon
  refine hiff.2 (hagree ?_)
  have hring : s.registry.positions refs = .ok [⟨0, 0⟩, ⟨3, 0⟩, ⟨0, 3⟩, ⟨0, 0⟩] :=
    positions_map_position s.registry (List.all_eq_true.1 (by decide +kernel))
  cases hpoints.symm.trans hring
  decide +kernel

/-- A list of points in line that ends at its first point twice has two centers: by the name of the
polygon that of three points, by the points that of four. -/
theorem centers_of_points_in_line :
    let s : Session Float := new .standard
    let refs : List (Reference Float) :=
      [⟨0, 0⟩, ⟨1, 0⟩, ⟨2, 0⟩, ⟨0, 0⟩, ⟨0, 0⟩].map Reference.position
    let s' := (s.perform (.polygon refs (some "p"))).2
    (s.perform (.polygon refs (some "p"))).1 = .ok (.name "p") ∧
      s'.Gives (.midpoint [.name "p"] none) (.dot ⟨1, 0⟩ "red") ∧
      s'.Gives (.midpoint refs none) (.dot ⟨0.75, 0⟩ "red") := by
  intro s refs s'
  let ring : List (Coord Float) := [⟨0, 0⟩, ⟨1, 0⟩, ⟨2, 0⟩, ⟨0, 0⟩, ⟨0, 0⟩]
  have hfinite : ring.all Coord.isFinite = true := by decide +kernel
  have hpolygon : (s.perform (.polygon refs (some "p"))).1 = .ok (.name "p") :=
    @perform_polygon_new ring (by decide) hfinite (by decide +kernel) _ (by decide)
  refine ⟨hpolygon, ?_⟩
  obtain ⟨points, q, q', hpoints, hq, hq', hs', hname, hrefs, -⟩ :=
    exists_centers_of_polygon Registry.indexed_empty hpolygon
  cases hpoints.symm.trans (positions_map_position s.registry (List.all_eq_true.1 hfinite))
  have hthree : (Ring.centroid? .standard (Ring.openRing .standard ring)).any
      (fun g => decide (g.x = 1 ∧ g.y = 0)) = true := by decide +kernel
  have hfour : (Ring.centroid? .standard ring).any
      (fun g => decide (g.x = 0.75 ∧ g.y = 0)) = true := by decide +kernel
  rw [show Ring.centroid? .standard (Ring.openRing .standard ring) = some q from hq,
    Option.any_some, decide_eq_true_eq] at hthree
  rw [show Ring.centroid? .standard ring = some q' from hq', Option.any_some,
    decide_eq_true_eq] at hfour
  obtain rfl : q = ⟨1, 0⟩ := Coord.ext hthree.1 hthree.2
  obtain rfl : q' = ⟨0.75, 0⟩ := Coord.ext hfour.1 hfour.2
  exact ⟨gives_midpoint hs' hname, gives_midpoint hs' hrefs⟩

end Straightedge.Session
