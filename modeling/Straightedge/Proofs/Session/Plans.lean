import Straightedge.Proofs.Session.Names
import Straightedge.Session.Operation

/-! # What plans change

A plan adds figures under free and different names, or replaces, renames or adjusts one thing. All
later arguments about operations start from this case distinction and not from the plans.

* **`Operation.placed`**: the position that an operation computes and stores without a check.
* **`Operation.motion?`**: the figure that an operation moves, and the map that moves it.
* **`Session.Drawn`**: the figures that an operation may add under a name.
* **`Session.Effect`**: what a plan may be about to change.
* **`Session.effect_of_plan`**: no plan is about to change anything else. -/

namespace Straightedge

variable {α : Type} [Scalar α]

/-! ## Checked curves -/

namespace Curve

/-- Enough vertices, and finite ones, pass the check. -/
theorem requireVertices_eq_ok_iff {vertices : List (Coord α)} :
    requireVertices vertices = .ok () ↔
      2 ≤ vertices.length ∧ ∀ p ∈ vertices, p.isFinite = true := by
  unfold requireVertices
  split
  · rename_i hlength
    simp [Nat.not_le.2 hlength]
  · rename_i hlength
    rw [← List.all_eq_true]
    cases vertices.all Coord.isFinite <;> simp [Nat.not_lt.1 hlength]

/-- A polyline has the given vertices, all of them checked. -/
theorem polyline_eq_ok_iff {vertices : List (Coord α)} {stroke : Stroke α}
    {tooltip : Option String} {curve : Curve α} :
    polyline vertices stroke tooltip = .ok curve ↔
      requireVertices vertices = .ok () ∧ curve = ⟨vertices, false, stroke, none, tooltip⟩ := by
  simp only [polyline, bind_eq_ok_iff, pure_eq_ok_iff]
  exact ⟨fun ⟨_, h⟩ => h, fun h => ⟨(), h⟩⟩

/-- A ring has the given vertices, all of them checked, and is closed. -/
theorem ring_eq_ok_iff {tol : Tolerance α} {vertices : List (Coord α)} {stroke : Stroke α}
    {fill tooltip : Option String} {curve : Curve α} :
    ring tol vertices stroke fill tooltip = .ok curve ↔
      requireVertices vertices = .ok () ∧
        curve = ⟨Ring.close tol vertices, true, stroke, fill, tooltip⟩ := by
  simp only [ring, bind_eq_ok_iff, pure_eq_ok_iff]
  exact ⟨fun ⟨_, h⟩ => h, fun h => ⟨(), h⟩⟩

end Curve

/-! ## Positions stored without a check -/

variable [Numeral α]

namespace Session

/-- Where the label of the angle at `b` between the legs to `a` and to `c` is placed. -/
def angleLabelPlace (s : Session α) (a b c : Coord α) : Coord α :=
  let u := a - b
  let v := c - b
  let sweep := Scalar.atan2 (u.cross v) (u.dot v)
  b + Coord.polar (Scalar.ofDecimal 15 (-1) * s.settings.arcRadius)
    (u.heading + sweep / Scalar.ofNat 2)

/-- Where the lines through the first two vertices of two curves meet. -/
def crossing (s : Session α) (first second : Reference α) :
    Except ConstructionError (Coord α) := do
  let l ← s.registry.curveAt first
  let m ← s.registry.curveAt second
  Line.intersection s.settings.tolerance l.endpoints.1 l.endpoints.2 m.endpoints.1 m.endpoints.2

end Session

/-- The position that an operation computes and stores as it is. All other operations look up the
positions of their new figures or check them. -/
def Operation.placed (s : Session α) : Operation α → Option (Coord α)
  | .midpoint refs _ => (s.center refs).toOption
  | .intersection first second _ => (s.crossing first second).toOption
  | .distance first second => Except.toOption do
    return Straightedge.midpoint (← s.registry.position first) (← s.registry.position second)
  | .angle first vertex second _ => Except.toOption do
    return s.angleLabelPlace (← s.registry.position first) (← s.registry.position vertex)
      (← s.registry.position second)
  | _ => none

/-- The figure that an operation moves, in place or as a copy, and the map that moves it. -/
def Operation.motion? (s : Session α) : Operation α → Option (String × Affine α)
  | .translate element dx dy _ => some (element, .translation dx dy)
  | .rotate element pivot degrees _ => do
    return (element, .rotation (← (s.registry.position pivot).toOption) degrees)
  | .reflect element mirror _ => do
    return (element, .reflection (← (s.registry.position mirror).toOption))
  | _ => none

namespace Session

/-! ## What a plan may change -/

/-- Positions that points and labels are drawn at: finite ones, those of references and the one that
the operation stores as it is. -/
inductive Supplied (s : Session α) (op : Operation α) : Coord α → Prop
  | finite {p : Coord α} (h : p.isFinite = true) : Supplied s op p
  | resolved {p : Coord α} {r : Reference α} (h : s.registry.position r = .ok p) : Supplied s op p
  | placed {p : Coord α} (h : op.placed s = some p) : Supplied s op p

/-- **The figures that an operation may add** under a name: points, labels, checked curves that are
titled with the name or not at all, and moved copies of other figures. -/
inductive Drawn (s : Session α) (op : Operation α) (name : String) : Figure α → Prop
  | marker {m : Marker α} (h : s.Supplied op m.coord) : Drawn s op name (.point m)
  | label {l : Label α} (h : s.Supplied op l.coord) : Drawn s op name (.label l)
  | ruler {vertices : List (Coord α)} {stroke : Stroke α} {curve : Curve α}
      (h : Curve.polyline vertices stroke none = .ok curve) : Drawn s op name (.curve curve)
  | polyline {vertices : List (Coord α)} {stroke : Stroke α} {details : List String}
      {curve : Curve α}
      (h : Curve.polyline vertices stroke (some (Tooltip.write name details)) = .ok curve) :
      Drawn s op name (.curve curve)
  | ring {vertices : List (Coord α)} {stroke : Stroke α} {fill : Option String}
      {details : List String} {curve : Curve α}
      (h : Curve.ring s.settings.tolerance vertices stroke fill
        (some (Tooltip.write name details)) = .ok curve) : Drawn s op name (.curve curve)
  | copy {element : String} {figure : Figure α} {f : Affine α}
      (hmotion : op.motion? s = some (element, f))
      (hfind : s.registry.find element = .ok figure) (hfinite : (figure.map f).isFinite = true) :
      Drawn s op name ((figure.map f).retitle element name)

/-- The changes that add figures under names. -/
def additions (entries : List (String × Figure α)) : List (Change α) :=
  entries.map fun entry => .add entry.1 entry.2

/-- **What a plan may be about to change**: it adds figures under free and different names, or it
makes one other change. -/
inductive Effect (s : Session α) (op : Operation α) : Plan α → Prop
  | adds (entries : List (String × Figure α)) (value : Value α)
      (hfree : ∀ entry ∈ entries, s.registry.requireFree entry.1 = .ok ())
      (hnodup : (entries.map Prod.fst).Nodup)
      (hdrawn : ∀ entry ∈ entries, s.Drawn op entry.1 entry.2) :
      Effect s op ⟨additions entries, value⟩
  | moves {element : String} {figure : Figure α} {f : Affine α}
      (hmotion : op.motion? s = some (element, f))
      (hfind : s.registry.find element = .ok figure) (hfinite : (figure.map f).isFinite = true) :
      Effect s op ⟨[.replace element (figure.map f)], .name element⟩
  | recolors {element color : String} {figure : Figure α}
      (hfind : s.registry.find element = .ok figure) :
      Effect s op ⟨[.replace element (figure.recolor color)], .name element⟩
  | renames (old new : String) : Effect s op ⟨[.rename old new], .name new⟩
  | entitles (title : String) : Effect s op ⟨[.setTitle title], .done⟩
  | limits (limits : AxisLimits α) : Effect s op ⟨[.setLimits limits], .done⟩
  | shows (visible : Bool) : Effect s op ⟨[.showAxes visible], .done⟩

/-- One figure added under a free name. -/
theorem Effect.addsOne {s : Session α} {op : Operation α} {name : String} {figure : Figure α}
    (hfree : s.registry.requireFree name = .ok ()) (hdrawn : s.Drawn op name figure) :
    s.Effect op (.addOne name figure) :=
  .adds [(name, figure)] _ (by simpa using hfree) (by simp) (by simpa using hdrawn)

/-! ## Points and labels -/

section

variable {s : Session α} {op : Operation α} {plan : Plan α}

theorem effect_point (hs : s.registry.Indexed) {place : Reference α} {name : Option String}
    (h : s.point place name = .ok plan) : s.Effect op plan := by
  simp only [point, ↓ite_throw_bind_eq_ok_iff, bind_eq_ok_iff, pure_eq_ok_iff] at h
  obtain ⟨-, p, hp, n, hn, rfl⟩ := h
  exact .addsOne (requireFree_of_nameFor hs hn) (.marker (.resolved hp))

theorem effect_label (hs : s.registry.Indexed) {place : Reference α} {content : String}
    {name : Option String} (h : s.label place content name = .ok plan) : s.Effect op plan := by
  simp only [label, bind_eq_ok_iff, pure_eq_ok_iff] at h
  obtain ⟨p, hp, n, hn, rfl⟩ := h
  exact .addsOne (requireFree_of_nameFor hs hn) (.label (.resolved hp))

theorem effect_midpoint (hs : s.registry.Indexed) {refs : List (Reference α)}
    {name : Option String} (h : s.midpoint refs name = .ok plan) :
    s.Effect (.midpoint refs name) plan := by
  simp only [midpoint, bind_eq_ok_iff, pure_eq_ok_iff] at h
  obtain ⟨p, hp, n, hn, rfl⟩ := h
  refine .addsOne (requireFree_of_nameFor hs hn) (.marker (.placed ?_))
  simp only [Operation.placed, hp, Except.toOption]

theorem effect_intersection (hs : s.registry.Indexed) {first second : Reference α}
    {name : Option String} (h : s.intersection first second name = .ok plan) :
    s.Effect (.intersection first second name) plan := by
  simp only [intersection, bind_eq_ok_iff, pure_eq_ok_iff] at h
  obtain ⟨l, hl, m, hm, p, hp, n, hn, rfl⟩ := h
  have hcrossing : s.crossing first second = .ok p :=
    bind_eq_ok_iff.2 ⟨l, hl, bind_eq_ok_iff.2 ⟨m, hm, hp⟩⟩
  refine .addsOne (requireFree_of_nameFor hs hn) (.marker (.placed ?_))
  simp only [Operation.placed, hcrossing, Except.toOption]

/-! ## Lines -/

theorem effect_line (hs : s.registry.Indexed) {first second : Reference α} {name : Option String}
    (h : s.line first second name = .ok plan) : s.Effect op plan := by
  simp only [line, bind_eq_ok_iff, pure_eq_ok_iff] at h
  obtain ⟨a, -, b, -, n, hn, curve, hcurve, rfl⟩ := h
  exact .addsOne (requireFree_of_nameFor hs hn) (.polyline hcurve)

theorem effect_segment (hs : s.registry.Indexed) {start finish : Reference α}
    {name : Option String} (h : s.segment start finish name = .ok plan) : s.Effect op plan := by
  simp only [segment, bind_eq_ok_iff, pure_eq_ok_iff] at h
  obtain ⟨a, -, b, -, n, hn, curve, hcurve, rfl⟩ := h
  -- the segment was checked, and its vertices are where the two points are drawn
  have hfinite := (Curve.requireVertices_eq_ok_iff.1 (Curve.polyline_eq_ok_iff.1 hcurve).1).2
  simp only [List.forall_mem_cons] at hfinite
  have hnamed := requireFree_of_nameFor hs hn
  -- the three figures, of which the first and the last may be missing
  let startEntry := (s.registry.freshVariant ("P_start_" ++ n), Figure.dot a "red")
  let entry := (n, Figure.curve curve)
  let endEntry := (s.registry.freshVariant ("P_end_" ++ n), Figure.dot b "blue")
  let entries := (if start.isPosition then [startEntry] else []) ++
    entry :: (if finish.number?.isSome then [endEntry] else [])
  have hsub : entries.Sublist [startEntry, entry, endEntry] := by
    show entries.Sublist ([startEntry] ++ entry :: [endEntry])
    refine List.Sublist.append ?_ (List.Sublist.cons_cons entry ?_)
    · split
      · exact List.Sublist.refl _
      · exact List.nil_sublist _
    · split
      · exact List.Sublist.refl _
      · exact List.nil_sublist _
  have hfree : ∀ e ∈ [startEntry, entry, endEntry], s.registry.requireFree e.1 = .ok () := by
    simp only [List.forall_mem_cons]
    refine ⟨hs.requireFree_freshVariant ?_, requireFree_of_nameFor hs hn,
      hs.requireFree_freshVariant ?_, List.forall_mem_nil _⟩
    · simp [String.append_eq_empty_iff]
    · simp [String.append_eq_empty_iff]
  -- names with different fronts, both longer than the name of the segment
  have hnodup : ([startEntry, entry, endEntry].map Prod.fst).Nodup := by
    have hstart : startEntry.1 ≠ n := freshVariant_append_ne _ (by decide) n
    have hend : endEntry.1 ≠ n := freshVariant_append_ne _ (by decide) n
    have hpoints : startEntry.1 ≠ endEntry.1 := startName_ne_endName _ n
    simp [entry, hstart, hend.symm, hpoints]
  have hdrawn : ∀ e ∈ [startEntry, entry, endEntry], s.Drawn op e.1 e.2 := by
    simp only [List.forall_mem_cons]
    exact ⟨.marker (.finite hfinite.1), .polyline hcurve, .marker (.finite hfinite.2.1),
      List.forall_mem_nil _⟩
  have hplan : additions entries = (if start.isPosition then
        [.add (s.registry.freshVariant ("P_start_" ++ n)) (.dot a "red")] else []) ++
      .add n (.curve curve) :: (if finish.number?.isSome then
        [.add (s.registry.freshVariant ("P_end_" ++ n)) (.dot b "blue")] else []) := by
    simp only [entries]
    split <;> split <;> rfl
  -- what holds of three figures holds of those that are there
  rw [← hplan]
  exact .adds entries _ (fun e he => hfree e (hsub.subset he)) (hnodup.sublist (hsub.map Prod.fst))
    fun e he => hdrawn e (hsub.subset he)

theorem effect_infiniteLine (hs : s.registry.Indexed) {first second : Reference α}
    {name : Option String} (h : s.infiniteLine first second name = .ok plan) :
    s.Effect op plan := by
  simp only [infiniteLine, bind_eq_ok_iff, pure_eq_ok_iff] at h
  obtain ⟨p, -, course, -, chord, -, n, hn, curve, hcurve, rfl⟩ := h
  exact .addsOne (requireFree_of_nameFor hs hn) (.polyline hcurve)

theorem effect_vector (hs : s.registry.Indexed) {start : Option (Reference α)}
    {finish : Reference α} {name : Option String} (h : s.vector start finish name = .ok plan) :
    s.Effect op plan := by
  cases start with
  | none =>
    simp only [vector, bind_eq_ok_iff, pure_eq_ok_iff] at h
    obtain ⟨a, -, b, -, n, hn, curve, hcurve, rfl⟩ := h
    exact .addsOne (requireFree_of_nameFor hs hn) (.polyline hcurve)
  | some r =>
    simp only [vector, bind_eq_ok_iff, pure_eq_ok_iff] at h
    obtain ⟨a, -, b, -, n, hn, curve, hcurve, rfl⟩ := h
    exact .addsOne (requireFree_of_nameFor hs hn) (.polyline hcurve)

theorem effect_perpendicular (hs : s.registry.Indexed) {place base : Reference α}
    {name : Option String} (h : s.perpendicular place base name = .ok plan) :
    s.Effect op plan := by
  simp only [perpendicular, bind_eq_ok_iff, pure_eq_ok_iff] at h
  obtain ⟨p, -, c, -, foot, -, n, hn, curve, hcurve, rfl⟩ := h
  exact .addsOne (requireFree_of_nameFor hs hn) (.polyline hcurve)

theorem effect_parallel (hs : s.registry.Indexed) {place base : Reference α}
    {name : Option String} (h : s.parallel place base name = .ok plan) : s.Effect op plan := by
  simp only [parallel, ↓ite_throw_bind_eq_ok_iff, bind_eq_ok_iff, pure_eq_ok_iff] at h
  obtain ⟨p, -, c, -, -, n, hn, curve, hcurve, rfl⟩ := h
  exact .addsOne (requireFree_of_nameFor hs hn) (.polyline hcurve)

/-! ## Closed curves -/

theorem effect_polygon (hs : s.registry.Indexed) {refs : List (Reference α)}
    {name : Option String} (h : s.polygon refs name = .ok plan) : s.Effect op plan := by
  simp only [polygon, ↓ite_throw_bind_eq_ok_iff, bind_eq_ok_iff, pure_eq_ok_iff] at h
  obtain ⟨-, points, -, n, hn, curve, hcurve, rfl⟩ := h
  exact .addsOne (requireFree_of_nameFor hs hn) (.ring hcurve)

theorem effect_regularPolygon (hs : s.registry.Indexed) {center vertex : Reference α} {n : Nat}
    {direction : Option (Reference α)} {name : Option String}
    (h : s.regularPolygon center vertex n direction name = .ok plan) : s.Effect op plan := by
  simp only [regularPolygon, ↓ite_throw_bind_eq_ok_iff, bind_eq_ok_iff, pure_eq_ok_iff] at h
  obtain ⟨-, -, -, c, -, v, -, -, heading, -, -, name, hname, curve, hcurve, rfl⟩ := h
  exact .addsOne (requireFree_of_nameFor hs hname) (.ring hcurve)

theorem effect_sampledCircle (hs : s.registry.Indexed) {center : Coord α} {radius : α}
    {name : Option String} (h : s.sampledCircle center radius name = .ok plan) :
    s.Effect op plan := by
  simp only [sampledCircle, bind_eq_ok_iff, pure_eq_ok_iff] at h
  obtain ⟨-, -, n, hn, curve, hcurve, rfl⟩ := h
  exact .addsOne (requireFree_of_nameFor hs hn) (.ring hcurve)

theorem effect_circle (hs : s.registry.Indexed) {center : Reference α} {size : CircleSize α}
    {name : Option String} (h : s.circle center size name = .ok plan) : s.Effect op plan := by
  simp only [circle, bind_eq_ok_iff] at h
  obtain ⟨c, -, radius, -, -, -, h⟩ := h
  exact effect_sampledCircle hs h

theorem effect_circleThrough (hs : s.registry.Indexed) {first second third : Reference α}
    {name : Option String} (h : s.circleThrough first second third name = .ok plan) :
    s.Effect op plan := by
  simp only [circleThrough, bind_eq_ok_iff] at h
  obtain ⟨a, -, b, -, c, -, center, -, -, -, h⟩ := h
  exact effect_sampledCircle hs h

theorem effect_ellipse (hs : s.registry.Indexed) {center : Reference α} {rx ry degrees : α}
    {name : Option String} (h : s.ellipse center rx ry degrees name = .ok plan) :
    s.Effect op plan := by
  simp only [ellipse, ↓ite_throw_bind_eq_ok_iff, bind_eq_ok_iff, pure_eq_ok_iff] at h
  obtain ⟨c, -, -, -, -, -, -, -, -, n, hn, curve, hcurve, rfl⟩ := h
  exact .addsOne (requireFree_of_nameFor hs hn) (.ring hcurve)

/-! ## Measures -/

theorem effect_measureDistance (hs : s.registry.Indexed) {first second : Reference α}
    (h : s.measureDistance first second = .ok plan) : s.Effect (.distance first second) plan := by
  simp only [measureDistance, bind_eq_ok_iff, pure_eq_ok_iff] at h
  obtain ⟨a, ha, b, hb, ruler, hruler, rfl⟩ := h
  obtain ⟨hfirst, hsecond, hne⟩ := distanceNames_free hs first second
  let label : Label α := { Label.plain (Straightedge.midpoint a b)
    (Numeral.twoPlaces (distance a b)) with fontSize := s.settings.labelFontSize }
  -- half-way between finite positions nothing is checked
  have hlabel : s.Supplied (.distance first second) label.coord := by
    refine .placed ?_
    simp only [Operation.placed, ha, hb]
    rfl
  refine .adds [(_, .curve ruler), (_, .label label)] _ ?_ ?_ ?_
  · simp only [List.forall_mem_cons]
    exact ⟨hfirst, hsecond, List.forall_mem_nil _⟩
  · simpa using hne
  · simp only [List.forall_mem_cons]
    exact ⟨.ruler hruler, .label hlabel, List.forall_mem_nil _⟩

theorem effect_measureAngle (hs : s.registry.Indexed) {first vertex second : Reference α}
    {name : Option String} (h : s.measureAngle first vertex second name = .ok plan) :
    s.Effect (.angle first vertex second name) plan := by
  simp only [measureAngle, ↓ite_throw_bind_eq_ok_iff, bind_eq_ok_iff, pure_eq_ok_iff] at h
  obtain ⟨a, ha, b, hb, c, hc, -, base, hbase, -, -, arc, harc, rfl⟩ := h
  obtain ⟨hfirst, hsecond⟩ := requireFree_of_angleBase hs hbase
  -- nor is the place of the label
  have hlabel : s.Supplied (.angle first vertex second name) (s.angleLabelPlace a b c) := by
    refine .placed ?_
    simp only [Operation.placed, ha, hb, hc]
    rfl
  refine .adds [(arcName base, .curve arc), (angleLabelName base, .label _)] _ ?_ ?_ ?_
  · simp only [List.forall_mem_cons]
    exact ⟨hfirst, hsecond, List.forall_mem_nil _⟩
  · simpa using arcName_ne_angleLabelName base base
  · simp only [List.forall_mem_cons]
    exact ⟨.polyline harc, .label hlabel, List.forall_mem_nil _⟩

/-! ## Changes of figures -/

omit [Numeral α] in
/-- A transform replaces a figure or adds a copy of it, in either case moved. -/
theorem transform_eq_ok_iff {element : String} {f : Affine α} {copyName : Option String} :
    s.transform element f copyName = .ok plan ↔
      ∃ figure, s.registry.find element = .ok figure ∧ (figure.map f).isFinite = true ∧
        match copyName with
        | none => plan = ⟨[.replace element (figure.map f)], .name element⟩
        | some target => s.registry.requireFree target = .ok () ∧
            plan = .addOne target ((figure.map f).retitle element target) := by
  cases copyName with
  | none =>
    simp only [transform, ↓ite_throw_bind_eq_ok_iff, bind_eq_ok_iff, pure_eq_ok_iff,
      Bool.not_eq_true', Bool.not_eq_false]
  | some target =>
    simp only [transform, ↓ite_throw_bind_eq_ok_iff, bind_eq_ok_iff, pure_eq_ok_iff,
      Bool.not_eq_true', Bool.not_eq_false]
    exact exists_congr fun figure => and_congr_right fun _ => and_congr_right fun _ =>
      ⟨fun ⟨_, h⟩ => h, fun h => ⟨(), h⟩⟩

theorem transform_of_translate {element : String} {dx dy : α} {copyName : Option String}
    (h : s.translate element dx dy copyName = .ok plan) :
    s.transform element (.translation dx dy) copyName = .ok plan := by
  simp only [translate, bind_eq_ok_iff] at h
  obtain ⟨-, -, -, -, h⟩ := h
  exact h

theorem transform_of_rotate {element : String} {pivot : Reference α} {degrees : α}
    {copyName : Option String} (h : s.rotate element pivot degrees copyName = .ok plan) :
    ∃ p, s.registry.position pivot = .ok p ∧
      s.transform element (.rotation p degrees) copyName = .ok plan := by
  simp only [rotate, bind_eq_ok_iff] at h
  obtain ⟨p, hp, -, -, h⟩ := h
  exact ⟨p, hp, h⟩

theorem transform_of_reflect {element : String} {mirror : Reference α}
    {copyName : Option String} (h : s.reflect element mirror copyName = .ok plan) :
    ∃ m, s.registry.position mirror = .ok m ∧
      s.transform element (.reflection m) copyName = .ok plan := by
  simpa only [reflect, bind_eq_ok_iff] using h

/-- An operation that moves a figure is planned as a transform. -/
theorem exists_transform_of_motion {element : String} {f : Affine α}
    (hmotion : op.motion? s = some (element, f)) (h : op.plan s = .ok plan) :
    ∃ copyName, s.transform element f copyName = .ok plan := by
  cases op <;> simp only [Operation.motion?, reduceCtorEq] at hmotion
  case translate _ dx dy copyName =>
    cases hmotion
    exact ⟨copyName, transform_of_translate h⟩
  case rotate _ pivot degrees copyName =>
    obtain ⟨p, hp, h⟩ := transform_of_rotate h
    rw [hp] at hmotion
    cases hmotion
    exact ⟨copyName, h⟩
  case reflect _ mirror copyName =>
    obtain ⟨m, hm, h⟩ := transform_of_reflect h
    rw [hm] at hmotion
    cases hmotion
    exact ⟨copyName, h⟩

theorem effect_transform {element : String} {f : Affine α} {copyName : Option String}
    (hmotion : op.motion? s = some (element, f)) (h : s.transform element f copyName = .ok plan) :
    s.Effect op plan := by
  obtain ⟨figure, hfind, hfinite, h⟩ := transform_eq_ok_iff.1 h
  cases copyName with
  | none =>
    rw [h]
    exact .moves hmotion hfind hfinite
  | some target =>
    obtain ⟨hfree, rfl⟩ := h
    exact .addsOne hfree (.copy hmotion hfind hfinite)

theorem effect_rotate {element : String} {pivot : Reference α} {degrees : α}
    {copyName : Option String} (h : s.rotate element pivot degrees copyName = .ok plan) :
    s.Effect (.rotate element pivot degrees copyName) plan := by
  obtain ⟨p, hp, h⟩ := transform_of_rotate h
  exact effect_transform (by simp only [Operation.motion?, hp]; rfl) h

theorem effect_reflect {element : String} {mirror : Reference α} {copyName : Option String}
    (h : s.reflect element mirror copyName = .ok plan) :
    s.Effect (.reflect element mirror copyName) plan := by
  obtain ⟨m, hm, h⟩ := transform_of_reflect h
  exact effect_transform (by simp only [Operation.motion?, hm]; rfl) h

theorem effect_recolor {element color : String} (h : s.recolor element color = .ok plan) :
    s.Effect op plan := by
  simp only [recolor, ↓ite_throw_bind_eq_ok_iff, bind_eq_ok_iff, pure_eq_ok_iff] at h
  obtain ⟨-, figure, hfind, rfl⟩ := h
  exact .recolors hfind

theorem effect_setAxisLimits {minX maxX minY maxY : α}
    (h : s.setAxisLimits minX maxX minY maxY = .ok plan) : s.Effect op plan := by
  simp only [setAxisLimits, ↓ite_throw_bind_eq_ok_iff, bind_eq_ok_iff, pure_eq_ok_iff] at h
  obtain ⟨-, -, -, -, -, -, -, -, -, rfl⟩ := h
  exact .limits _

end

/-! ## All operations -/

/-- **No operation is about to change anything but what its effect allows**, if the index of the
registry is right. -/
theorem effect_of_plan {s : Session α} (hs : s.registry.Indexed) {op : Operation α}
    {plan : Plan α} (h : op.plan s = .ok plan) : s.Effect op plan := by
  -- `rename`, `setTitle` and `showAxes` are planned without any check
  cases op with
  | point place name => exact effect_point hs h
  | label place content name => exact effect_label hs h
  | line first second name => exact effect_line hs h
  | segment start finish name => exact effect_segment hs h
  | infiniteLine first second name => exact effect_infiniteLine hs h
  | vector start finish name => exact effect_vector hs h
  | polygon refs name => exact effect_polygon hs h
  | regularPolygon center vertex n direction name => exact effect_regularPolygon hs h
  | circle center size name => exact effect_circle hs h
  | circleThrough first second third name => exact effect_circleThrough hs h
  | ellipse center rx ry degrees name => exact effect_ellipse hs h
  | midpoint refs name => exact effect_midpoint hs h
  | intersection first second name => exact effect_intersection hs h
  | perpendicular place base name => exact effect_perpendicular hs h
  | parallel place base name => exact effect_parallel hs h
  | distance first second => exact effect_measureDistance hs h
  | angle first vertex second name => exact effect_measureAngle hs h
  | translate element dx dy copyName => exact effect_transform rfl (transform_of_translate h)
  | rotate element pivot degrees copyName => exact effect_rotate h
  | reflect element mirror copyName => exact effect_reflect h
  | recolor element color => exact effect_recolor h
  | rename old new => cases h; exact .renames old new
  | setTitle title => cases h; exact .entitles title
  | setAxisLimits minX maxX minY maxY => exact effect_setAxisLimits h
  | showAxes visible => cases h; exact .shows visible

end Session

end Straightedge
