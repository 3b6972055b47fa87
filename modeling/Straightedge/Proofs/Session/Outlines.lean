import Straightedge.Proofs.Plane.Ovals
import Straightedge.Proofs.Plane.RegularPolygons
import Straightedge.Proofs.Session.Figures

/-! # Outlines

Five operations draw a closed curve. Each of them first finds the vertices of the curve, the corners
of a polygon or the samples of a round curve, and then adds the curve through them, closed.

* **`Curve.IsRing`**, **`Curve.HasCorners`**: the closed curve through given vertices, and how many
  corners a closed curve has.
* **`Session.Gives`**: an operation that succeeds, and the figure it leaves.
* **`Session.DrawsRegular`**, **`Session.DrawsOval`**: the shapes that operations draw.
* **`Session.Outlines`**: the vertices that an operation finds.
* **`Operation.drawsRing`**: whether an operation draws a closed curve.
* **`Session.exists_ring_of_perform`**: what is added by an operation that draws one, and
  **`Session.exists_gives_of_perform`**, **`Session.exists_oval_of_perform`**: what it gives.
* **`Registry.Indexed.positions_insert`**: what references denote, they denote after an addition. -/

namespace Straightedge

variable {α : Type}

/-! ## After an addition -/

namespace Registry.Indexed

variable {r r' : Registry α} {name : String} {figure : Figure α}

/-- A figure is found after another one was added. -/
theorem find_of_insert (hr : r.Indexed) (hinsert : r.insert name figure = .ok r')
    {other : String} {found : Figure α} (hfind : r.find other = .ok found) :
    r'.find other = .ok found := by
  refine (hr.insert hinsert).find_of_mem_toList ?_
  rw [Registry.toList_insert hinsert]
  exact List.mem_append_left _ (hr.mem_toList_of_find hfind)

variable [Scalar α] [Numeral α]

/-- A reference denotes the same position after an addition. -/
theorem position_insert (hr : r.Indexed) (hinsert : r.insert name figure = .ok r')
    {ref : Reference α} {p : Coord α} (h : r.position ref = .ok p) : r'.position ref = .ok p := by
  cases ref with
  | position q => exact h
  | number x => exact h
  | direction v => exact h
  | name n =>
    obtain ⟨found, hfind, h⟩ := bind_eq_ok_iff.1 h
    exact bind_eq_ok_iff.2 ⟨found, hr.find_of_insert hinsert hfind, h⟩

/-- **What references denote, they denote after an addition.** -/
theorem positions_insert (hr : r.Indexed) (hinsert : r.insert name figure = .ok r')
    {refs : List (Reference α)} {ps : List (Coord α)} (h : r.positions refs = .ok ps) :
    r'.positions refs = .ok ps :=
  mapM_eq_ok_of_forall (fun _ _ => hr.position_insert hinsert) h

end Registry.Indexed

/-! ## Rings as curves -/

variable [Scalar α]

namespace Curve

/-- **A curve is the ring of given vertices**, closed if they do not end where they start. -/
structure IsRing (c : Curve α) (tol : Tolerance α) (vertices : List (Coord α)) : Prop where
  closed : c.closed = true
  vertices_eq : c.vertices = Ring.close tol vertices

variable {c : Curve α} {tol : Tolerance α} {vertices : List (Coord α)}

theorem IsRing.corners_eq (h : c.IsRing tol vertices) : c.corners = Ring.openRing tol vertices := by
  rw [Curve.corners, if_pos h.closed, h.vertices_eq, Ring.dropLast_close]

/-- **A closed curve has a number of corners**, and one vertex more. -/
def HasCorners (c : Curve α) (n : Nat) : Prop :=
  c.closed = true ∧ c.vertices.length = n + 1 ∧ c.corners.length = n

/-- **How many corners a ring has**: as many as vertices, or one less if these end as they start. -/
theorem IsRing.hasCorners_iff (h : c.IsRing tol vertices) (hne : vertices ≠ []) {n : Nat} :
    c.HasCorners n ↔
      n = if Ring.isClosed tol vertices then vertices.length - 1 else vertices.length := by
  have hcorners := Ring.length_openRing tol vertices
  have hvertices := Ring.length_close tol hne
  rw [HasCorners, h.corners_eq, h.vertices_eq, hcorners, hvertices]
  constructor
  · rintro ⟨-, -, hn⟩
    exact hn.symm
  · rintro rfl
    refine ⟨h.closed, ?_, rfl⟩
    split
    · rename_i hends
      have hlength : 2 ≤ vertices.length := (Ring.isClosed_iff.1 hends).1
      omega
    · rfl

end Curve

/-! ## Vertices -/

variable [Numeral α]

namespace Session

/-- **An operation succeeds and leaves a figure** under the name that it gives back. -/
def Gives (s : Session α) (op : Operation α) (figure : Figure α) : Prop :=
  ∃ name, (s.perform op).1 = .ok (.name name) ∧
    (s.perform op).2.registry.find name = .ok figure

/-- **The regular polygon that an operation draws.** -/
inductive DrawsRegular (s : Session α) : Operation α → RegularPolygon α → Prop
  | regularPolygon {center vertex : Reference α} {direction : Option (Reference α)}
      {c v heading : Coord α} {n : Nat} (name : Option String) (hmany : 3 ≤ n)
      (hlimit : n ≤ vertexLimit) (hcenter : s.registry.position center = .ok c)
      (hvertex : s.registry.position vertex = .ok v)
      (hradius : s.settings.tolerance.tiny (distance c v) = false)
      (hheading : cornerHeading c v direction = .ok heading) :
      DrawsRegular s (.regularPolygon center vertex n direction name)
        ⟨c, distance c v, heading.heading, n⟩

/-- **The oval that an operation draws.** -/
inductive DrawsOval (s : Session α) : Operation α → Oval α → Prop
  | circle {center : Reference α} {size : CircleSize α} {c : Coord α} {radius : α}
      (name : Option String) (hcenter : s.registry.position center = .ok c)
      (hradius : s.circleRadius c size = .ok radius) :
      DrawsOval s (.circle center size name) ⟨c, radius, radius, Scalar.zero⟩
  | circleThrough {first second third : Reference α} {a b c center : Coord α}
      (name : Option String) (hfirst : s.registry.position first = .ok a)
      (hsecond : s.registry.position second = .ok b) (hthird : s.registry.position third = .ok c)
      (hcenter : Line.circumcenter s.settings.tolerance a b c = .ok center) :
      DrawsOval s (.circleThrough first second third name)
        ⟨center, distance a center, distance a center, Scalar.zero⟩
  | ellipse {center : Reference α} {c : Coord α} {rx ry degrees : α} (name : Option String)
      (hcenter : s.registry.position center = .ok c) (hdegrees : Scalar.isFinite degrees = true) :
      DrawsOval s (.ellipse center rx ry degrees name) ⟨c, rx, ry, degrees⟩

/-- **The vertices that an operation finds for its closed curve**: given points, the corners of a
regular polygon, or the samples of an oval. -/
inductive Outlines (s : Session α) : Operation α → List (Coord α) → Prop
  | polygon {refs : List (Reference α)} {points : List (Coord α)} (name : Option String)
      (hmany : 3 ≤ refs.length) (hpoints : s.registry.positions refs = .ok points) :
      Outlines s (.polygon refs name) points
  | regular {op : Operation α} {g : RegularPolygon α} (h : s.DrawsRegular op g) :
      Outlines s op g.corners
  | oval {op : Operation α} {o : Oval α} (h : s.DrawsOval op o)
      (hsegments : s.settings.curveSegments ≤ vertexLimit) :
      Outlines s op (o.samples s.settings.curveSegments)

end Session

omit [Scalar α] [Numeral α] in
/-- Whether an operation draws an oval. -/
def Operation.drawsOval : Operation α → Bool
  | .circle .. | .circleThrough .. | .ellipse .. => true
  | _ => false

omit [Scalar α] [Numeral α] in
/-- Whether an operation draws a closed curve. -/
def Operation.drawsRing : Operation α → Bool
  | .polygon .. | .regularPolygon .. => true
  | op => op.drawsOval

namespace Session

variable {s : Session α} {op : Operation α} {plan : Plan α}

omit [Scalar α] [Numeral α] in
theorem requireVertexCount_eq_ok_iff {what : String} {n : Nat} :
    requireVertexCount what n = .ok () ↔ n ≤ vertexLimit := by
  rw [requireVertexCount, ← Nat.not_lt]
  split <;> simp_all

/-- A sampled circle is planned as a closed curve through its samples. -/
theorem exists_ring_of_sampledCircle {center : Coord α} {radius : α} {wanted : Option String}
    (h : s.sampledCircle center radius wanted = .ok plan) :
    ∃ name stroke fill tip curve, s.settings.curveSegments ≤ vertexLimit ∧
      s.nameFor wanted "Circle" = .ok name ∧
      Curve.ring s.settings.tolerance (Sampling.circle center radius s.settings.curveSegments)
        stroke fill tip = .ok curve ∧ plan = .addOne name (.curve curve) := by
  simp only [sampledCircle, bind_eq_ok_iff, pure_eq_ok_iff] at h
  obtain ⟨_, hcount, name, hname, curve, hcurve, rfl⟩ := h
  exact ⟨name, _, _, _, curve, requireVertexCount_eq_ok_iff.1 hcount, hname, hcurve, rfl⟩

/-- A circle of finite samples is planned if it gets a name and may have as many vertices. -/
theorem exists_sampledCircle (center : Coord α) (radius : α) {wanted : Option String}
    {name : String} (hsegments : s.settings.curveSegments ≤ vertexLimit)
    (hname : s.nameFor wanted "Circle" = .ok name)
    (hfinite : ∀ p ∈ Sampling.circle center radius s.settings.curveSegments, p.isFinite = true) :
    ∃ curve, s.sampledCircle center radius wanted = .ok (.addOne name (.curve curve)) := by
  have hvertices : Curve.requireVertices
      (Sampling.circle center radius s.settings.curveSegments) = .ok () := by
    refine Curve.requireVertices_eq_ok_iff.2 ⟨?_, hfinite⟩
    rw [Sampling.circle, Sampling.length_ellipse, Sampling.closedSegments]
    omega
  simp only [sampledCircle, bind_eq_ok_iff, pure_eq_ok_iff, Curve.ring_eq_ok_iff]
  exact ⟨_, (), requireVertexCount_eq_ok_iff.2 hsegments, name, hname, _, ⟨hvertices, rfl⟩, rfl⟩

/-- **An operation that draws a closed curve is planned to add it, through the vertices found.** -/
theorem exists_ring_of_plan (hdraws : op.drawsRing = true) (h : op.plan s = .ok plan) :
    ∃ vertices wanted stem name stroke fill tip curve, s.Outlines op vertices ∧
      s.nameFor wanted stem = .ok name ∧
      Curve.ring s.settings.tolerance vertices stroke fill tip = .ok curve ∧
      plan = .addOne name (.curve curve) := by
  cases op with
  | polygon refs wanted =>
    simp only [Operation.plan, polygon, ↓ite_throw_bind_eq_ok_iff, bind_eq_ok_iff,
      pure_eq_ok_iff] at h
    obtain ⟨hmany, points, hpoints, name, hname, curve, hcurve, rfl⟩ := h
    exact ⟨_, _, _, name, _, _, _, curve, .polygon wanted (Nat.not_lt.1 hmany) hpoints, hname,
      hcurve, rfl⟩
  | regularPolygon center vertex n direction wanted =>
    simp only [Operation.plan, regularPolygon, ↓ite_throw_bind_eq_ok_iff, bind_eq_ok_iff,
      pure_eq_ok_iff] at h
    obtain ⟨hmany, _, hcount, c, hc, v, hv, hradius, heading, hheading, -, name, hname, curve,
      hcurve, rfl⟩ := h
    exact ⟨_, _, _, name, _, _, _, curve,
      .regular (.regularPolygon wanted (Nat.not_lt.1 hmany) (requireVertexCount_eq_ok_iff.1 hcount)
        hc hv (Bool.not_eq_true _ ▸ hradius) hheading), hname, hcurve, rfl⟩
  | circle center size wanted =>
    simp only [Operation.plan, circle, bind_eq_ok_iff] at h
    obtain ⟨c, hc, radius, hradius, -, -, h⟩ := h
    obtain ⟨name, stroke, fill, tip, curve, hcount, hname, hcurve, rfl⟩ :=
      exists_ring_of_sampledCircle h
    exact ⟨_, _, _, name, _, _, _, curve, .oval (.circle wanted hc hradius) hcount, hname, hcurve,
      rfl⟩
  | circleThrough first second third wanted =>
    simp only [Operation.plan, circleThrough, bind_eq_ok_iff] at h
    obtain ⟨a, ha, b, hb, c, hc, center, hcenter, -, -, h⟩ := h
    obtain ⟨name, stroke, fill, tip, curve, hcount, hname, hcurve, rfl⟩ :=
      exists_ring_of_sampledCircle h
    exact ⟨_, _, _, name, _, _, _, curve, .oval (.circleThrough wanted ha hb hc hcenter) hcount,
      hname, hcurve, rfl⟩
  | ellipse center rx ry degrees wanted =>
    simp only [Operation.plan, ellipse, ↓ite_throw_bind_eq_ok_iff, bind_eq_ok_iff,
      pure_eq_ok_iff] at h
    obtain ⟨c, hc, -, -, -, -, hdegrees, _, hcount, name, hname, curve, hcurve, rfl⟩ := h
    exact ⟨_, _, _, name, _, _, _, curve, .oval (.ellipse wanted hc (by simpa using hdegrees))
      (requireVertexCount_eq_ok_iff.1 hcount), hname, hcurve, rfl⟩
  | _ => cases hdraws

/-- **An operation that draws a closed curve and succeeds adds one figure**: the closed curve
through the vertices that it has found. -/
theorem exists_ring_of_perform (hs : s.registry.Indexed) (hdraws : op.drawsRing = true)
    {v : Value α} (hok : (s.perform op).1 = .ok v) :
    ∃ vertices name r curve, s.Outlines op vertices ∧ v = .name name ∧
      Curve.requireVertices vertices = .ok () ∧ curve.closed = true ∧
      curve.vertices = Ring.close s.settings.tolerance vertices ∧
      s.registry.insert name (.curve curve) = .ok r ∧
      s.perform op = (.ok (.name name), { s with registry := r }) := by
  cases hplan : op.plan s with
  | error e =>
    rw [perform_of_error hplan] at hok
    cases hok
  | ok plan =>
    obtain ⟨vertices, wanted, stem, name, stroke, fill, tip, curve, houtlines, hname, hcurve,
      rfl⟩ := exists_ring_of_plan hdraws hplan
    obtain ⟨hvertices, rfl⟩ := Curve.ring_eq_ok_iff.1 hcurve
    obtain ⟨r, hinsert, hperform⟩ := exists_perform_addOne hplan (requireFree_of_nameFor hs hname)
    rw [hperform] at hok
    cases hok
    exact ⟨vertices, name, r, _, houtlines, rfl, hvertices, rfl, rfl, hinsert, hperform⟩

/-- **An operation that draws a closed curve and succeeds gives it**: the ring of the vertices that
it has found. -/
theorem exists_gives_of_perform (hs : s.registry.Indexed) (hdraws : op.drawsRing = true)
    {v : Value α} (hok : (s.perform op).1 = .ok v) :
    ∃ vertices curve, s.Outlines op vertices ∧ s.Gives op (.curve curve) ∧
      curve.IsRing s.settings.tolerance vertices := by
  obtain ⟨vertices, name, r, curve, houtlines, -, -, hclosed, hvertices, hinsert, hperform⟩ :=
    exists_ring_of_perform hs hdraws hok
  refine ⟨vertices, curve, houtlines, ⟨name, ?_, ?_⟩, hclosed, hvertices⟩
  · rw [hperform]
  · rw [hperform]
    exact hs.find_insert hinsert

/-- **An operation that draws an oval and succeeds gives the ring of its samples.** -/
theorem exists_oval_of_perform (hs : s.registry.Indexed) (hdraws : op.drawsOval = true)
    {v : Value α} (hok : (s.perform op).1 = .ok v) :
    ∃ o curve, s.DrawsOval op o ∧ s.settings.curveSegments ≤ vertexLimit ∧
      s.Gives op (.curve curve) ∧
      curve.IsRing s.settings.tolerance (o.samples s.settings.curveSegments) := by
  have hring : op.drawsRing = true := by cases op <;> first | exact hdraws | cases hdraws
  obtain ⟨vertices, curve, houtlines, hgives, hcurve⟩ := exists_gives_of_perform hs hring hok
  cases houtlines with
  | polygon => cases hdraws
  | regular hregular =>
    cases hregular
    cases hdraws
  | @oval _ o hoval hsegments => exact ⟨o, curve, hoval, hsegments, hgives, hcurve⟩

end Session

end Straightedge
