import Straightedge.Proofs.Session.Atomicity

/-! # Arguments that are not finite

Every operation checks the numbers it is given where it reads them, with one exception: an infinite
line looks at the position or the direction that says how it goes on only by computing with it, and
there an infinity may cancel.

* **`Operation.numbers`**: the numbers among the arguments of an operation.
* **`Session.Overlooks`**: an infinite line with a chord that is finite.
* **`Session.finiteNumbers_or_overlooks`**: what is planned has finite arguments, or overlooks some.
* **`Session.perform_of_not_finite_iff`**: when arguments that are not finite are refused. -/

namespace Straightedge

variable {α : Type}

/-! ## The numbers among arguments -/

/-- The numbers that a reference is made of. -/
def Reference.numbers : Reference α → List α
  | .name _ => []
  | .position p => [p.x, p.y]
  | .number x => [x]
  | .direction v => [v.x, v.y]

/-- The numbers that the size of a circle is made of. -/
def CircleSize.numbers : CircleSize α → List α
  | .radius r => [r]
  | .segment _ => []
  | .through place => place.numbers

/-- **The numbers among the arguments of an operation**: coordinates, directions, lengths, radii,
semi-axes, displacements, angles and limits. -/
def Operation.numbers : Operation α → List α
  | .point place _ => place.numbers
  | .label place _ _ => place.numbers
  | .line first second _ => first.numbers ++ second.numbers
  | .segment start finish _ => start.numbers ++ finish.numbers
  | .infiniteLine first second _ => first.numbers ++ second.numbers
  | .vector start finish _ => (start.map Reference.numbers).getD [] ++ finish.numbers
  | .polygon refs _ => refs.flatMap Reference.numbers
  | .regularPolygon center vertex _ direction _ =>
    center.numbers ++ vertex.numbers ++ (direction.map Reference.numbers).getD []
  | .circle center size _ => center.numbers ++ size.numbers
  | .circleThrough first second third _ => first.numbers ++ second.numbers ++ third.numbers
  | .ellipse center rx ry degrees _ => center.numbers ++ [rx, ry, degrees]
  | .midpoint refs _ => refs.flatMap Reference.numbers
  | .intersection first second _ => first.numbers ++ second.numbers
  | .perpendicular place base _ => place.numbers ++ base.numbers
  | .parallel place base _ => place.numbers ++ base.numbers
  | .distance first second => first.numbers ++ second.numbers
  | .angle first vertex second _ => first.numbers ++ vertex.numbers ++ second.numbers
  | .translate _ dx dy _ => [dx, dy]
  | .rotate _ pivot degrees _ => pivot.numbers ++ [degrees]
  | .reflect _ mirror _ => mirror.numbers
  | .setAxisLimits minX maxX minY maxY => [minX, maxX, minY, maxY]
  | .recolor _ _ => []
  | .rename _ _ => []
  | .setTitle _ => []
  | .showAxes _ => []

variable [Scalar α]

/-- **All numbers of a list are finite.** -/
def FiniteNumbers (xs : List α) : Prop := ∀ x ∈ xs, Scalar.isFinite x = true

namespace FiniteNumbers

variable {xs ys : List α}

@[simp] theorem nil : FiniteNumbers ([] : List α) := List.forall_mem_nil _

@[simp] theorem cons_iff {x : α} :
    FiniteNumbers (x :: xs) ↔ Scalar.isFinite x = true ∧ FiniteNumbers xs :=
  List.forall_mem_cons

@[simp] theorem append_iff :
    FiniteNumbers (xs ++ ys) ↔ FiniteNumbers xs ∧ FiniteNumbers ys :=
  List.forall_mem_append

/-- A position is finite if its coordinates are. -/
theorem of_isFinite {p : Coord α} (hp : p.isFinite = true) : FiniteNumbers [p.x, p.y] := by
  obtain ⟨hx, hy⟩ := Bool.and_eq_true_iff.1 hp
  exact cons_iff.2 ⟨hx, cons_iff.2 ⟨hy, nil⟩⟩

end FiniteNumbers

/-! ## What the checks let pass -/

variable [Numeral α]

namespace Registry

variable {r : Registry α}

/-- What denotes a position is made of finite numbers. -/
theorem finiteNumbers_of_position {place : Reference α} {p : Coord α}
    (h : r.position place = .ok p) : FiniteNumbers place.numbers := by
  cases place with
  | name n => exact FiniteNumbers.nil
  | position q =>
    simp only [position] at h
    split at h
    · rename_i hq
      exact FiniteNumbers.of_isFinite hq
    · cases h
  | number x => cases h
  | direction v => cases h

/-- So is each of several references that denote positions. -/
theorem finiteNumbers_of_positions {refs : List (Reference α)} {ps : List (Coord α)}
    (h : r.positions refs = .ok ps) : FiniteNumbers (refs.flatMap Reference.numbers) := by
  induction refs generalizing ps with
  | nil => exact FiniteNumbers.nil
  | cons place refs ih =>
    simp only [positions, List.mapM_cons, bind_eq_ok_iff] at h
    obtain ⟨p, hp, qs, hqs, -⟩ := h
    rw [List.flatMap_cons, FiniteNumbers.append_iff]
    exact ⟨finiteNumbers_of_position hp, ih hqs⟩

/-- What names a curve is no number. -/
theorem numbers_of_curveAt {base : Reference α} {c : Curve α} (h : r.curveAt base = .ok c) :
    base.numbers = [] := by
  cases base with
  | name n => rfl
  | position q => cases h
  | number x => cases h
  | direction v => cases h

end Registry

namespace Session

variable {s : Session α} {op : Operation α} {plan : Plan α}

theorem isFinite_of_requirePositive {what : String} {x : α}
    (h : requirePositive what x = .ok ()) : Scalar.isFinite x = true := by
  unfold requirePositive at h
  split at h
  · cases h
  · rename_i hx
    simp only [Bool.or_eq_true, Bool.not_eq_true', not_or, Bool.not_eq_false] at hx
    exact hx.1

theorem isFinite_of_requireFinite {what : String} {x : α}
    (h : requireFinite what x = .ok ()) : Scalar.isFinite x = true := by
  unfold requireFinite at h
  split at h
  · assumption
  · cases h

theorem isFinite_of_requireLimit {what : String} {x : α}
    (h : requireLimit what x = .ok ()) : Scalar.isFinite x = true := by
  unfold requireLimit at h
  split at h
  · assumption
  · cases h

/-- The end of a segment is made of finite numbers, also if it is a length. -/
theorem finiteNumbers_of_segmentEnd {a b : Coord α} {finish : Reference α}
    (h : s.segmentEnd a finish = .ok b) : FiniteNumbers finish.numbers := by
  cases finish with
  | number length =>
    simp only [segmentEnd, ↓ite_throw_bind_eq_ok_iff] at h
    obtain ⟨hlength, -⟩ := h
    simp only [Bool.or_eq_true, Bool.not_eq_true', not_or, Bool.not_eq_false] at hlength
    exact FiniteNumbers.cons_iff.2 ⟨hlength.1, FiniteNumbers.nil⟩
  | name n => exact FiniteNumbers.nil
  | position q => exact Registry.finiteNumbers_of_position (r := s.registry) h
  | direction v => cases h

/-- The direction of the first corner of a regular polygon is made of finite numbers if it is
finite. -/
theorem finiteNumbers_of_cornerHeading {c v heading : Coord α} {direction : Option (Reference α)}
    (h : cornerHeading c v direction = .ok heading) (hheading : heading.isFinite = true) :
    FiniteNumbers ((direction.map Reference.numbers).getD []) := by
  cases direction with
  | none => exact FiniteNumbers.nil
  | some r =>
    cases r with
    | name n => cases h
    | number x => cases h
    | position q =>
      cases h
      exact FiniteNumbers.of_isFinite hheading
    | direction d =>
      cases h
      exact FiniteNumbers.of_isFinite hheading

/-- What has a center is made of finite numbers. -/
theorem finiteNumbers_of_center {refs : List (Reference α)} {p : Coord α}
    (h : s.center refs = .ok p) : FiniteNumbers (refs.flatMap Reference.numbers) := by
  -- no reference, a polygon, two points, or more
  match refs with
  | [] => exact FiniteNumbers.nil
  | [polygon] =>
    simp only [center, bind_eq_ok_iff] at h
    obtain ⟨curve, hcurve, -⟩ := h
    simp [Registry.numbers_of_curveAt hcurve]
  | [first, second] =>
    simp only [center, bind_eq_ok_iff] at h
    obtain ⟨a, ha, b, hb, -⟩ := h
    simp [Registry.finiteNumbers_of_position ha, Registry.finiteNumbers_of_position hb]
  | first :: second :: third :: refs =>
    simp only [center, bind_eq_ok_iff] at h
    obtain ⟨points, hpoints, -⟩ := h
    exact Registry.finiteNumbers_of_positions hpoints

/-- The radius of a circle comes from finite numbers if it is finite. -/
theorem finiteNumbers_of_circleRadius {c : Coord α} {size : CircleSize α} {radius : α}
    (h : s.circleRadius c size = .ok radius) (hradius : Scalar.isFinite radius = true) :
    FiniteNumbers size.numbers := by
  cases size with
  | radius r =>
    cases h
    exact FiniteNumbers.cons_iff.2 ⟨hradius, FiniteNumbers.nil⟩
  | segment name => exact FiniteNumbers.nil
  | through place =>
    simp only [circleRadius, bind_eq_ok_iff] at h
    obtain ⟨p, hp, -⟩ := h
    exact Registry.finiteNumbers_of_position hp

/-! ## What is planned -/

/-- **An infinite line whose chord is finite**, whatever it goes through or along: it starts at a
position, and it is drawn. -/
def Overlooks (s : Session α) : Operation α → Prop
  | .infiniteLine first second name => ∃ p course a b n, s.registry.position first = .ok p ∧
      s.course second = .ok course ∧
      Line.chord s.settings.tolerance s.currentWindow p course = .ok (a, b) ∧
      a.isFinite = true ∧ b.isFinite = true ∧ s.nameFor name "InfLine" = .ok n
  | _ => False

/-- Such a line is planned as the chord that it has. -/
theorem exists_plan_of_overlooks (h : s.Overlooks op) :
    ∃ name curve, op.plan s = .ok (.addOne name (.curve curve)) ∧
      ∃ wanted, s.nameFor wanted "InfLine" = .ok name := by
  cases op
  case infiniteLine first second wanted =>
    obtain ⟨p, course, a, b, n, hp, hcourse, hchord, ha, hb, hn⟩ := h
    refine ⟨n, ⟨[a, b], false, .dashed "#00F", none,
      some (Tooltip.write n ["Crossing 1: " ++ a.text, "Crossing 2: " ++ b.text])⟩, ?_, wanted, hn⟩
    have hvertices : Curve.requireVertices [a, b] = .ok () :=
      Curve.requireVertices_eq_ok_iff.2 ⟨Nat.le_refl 2, by simp [ha, hb]⟩
    simp only [Operation.plan, infiniteLine, bind_eq_ok_iff, pure_eq_ok_iff]
    exact ⟨p, hp, course, hcourse, (a, b), hchord, n, hn, _,
      Curve.polyline_eq_ok_iff.2 ⟨hvertices, rfl⟩, rfl⟩
  all_goals exact h.elim

/-! ### Points and labels -/

theorem finiteNumbers_of_point {place : Reference α} {name : Option String}
    (h : s.point place name = .ok plan) : FiniteNumbers (Operation.point place name).numbers := by
  simp only [point, ↓ite_throw_bind_eq_ok_iff, bind_eq_ok_iff] at h
  obtain ⟨-, p, hp, -⟩ := h
  exact Registry.finiteNumbers_of_position hp

theorem finiteNumbers_of_label {place : Reference α} {content : String} {name : Option String}
    (h : s.label place content name = .ok plan) :
    FiniteNumbers (Operation.label place content name).numbers := by
  simp only [label, bind_eq_ok_iff] at h
  obtain ⟨p, hp, -⟩ := h
  exact Registry.finiteNumbers_of_position hp

theorem finiteNumbers_of_midpoint {refs : List (Reference α)} {name : Option String}
    (h : s.midpoint refs name = .ok plan) :
    FiniteNumbers (Operation.midpoint refs name).numbers := by
  simp only [midpoint, bind_eq_ok_iff] at h
  obtain ⟨p, hp, -⟩ := h
  exact finiteNumbers_of_center hp

theorem finiteNumbers_of_intersection {first second : Reference α} {name : Option String}
    (h : s.intersection first second name = .ok plan) :
    FiniteNumbers (Operation.intersection first second name).numbers := by
  simp only [intersection, bind_eq_ok_iff] at h
  obtain ⟨l, hl, m, hm, -⟩ := h
  simp [Operation.numbers, Registry.numbers_of_curveAt hl, Registry.numbers_of_curveAt hm]

/-! ### Lines -/

theorem finiteNumbers_of_line {first second : Reference α} {name : Option String}
    (h : s.line first second name = .ok plan) :
    FiniteNumbers (Operation.line first second name).numbers := by
  simp only [line, bind_eq_ok_iff] at h
  obtain ⟨a, ha, b, hb, -⟩ := h
  exact FiniteNumbers.append_iff.2
    ⟨Registry.finiteNumbers_of_position ha, Registry.finiteNumbers_of_position hb⟩

theorem finiteNumbers_of_segment {start finish : Reference α} {name : Option String}
    (h : s.segment start finish name = .ok plan) :
    FiniteNumbers (Operation.segment start finish name).numbers := by
  simp only [segment, bind_eq_ok_iff] at h
  obtain ⟨a, ha, b, hb, -⟩ := h
  exact FiniteNumbers.append_iff.2
    ⟨Registry.finiteNumbers_of_position ha, finiteNumbers_of_segmentEnd hb⟩

/-- A planned infinite line has a finite chord. -/
theorem overlooks_of_infiniteLine {first second : Reference α} {name : Option String}
    (h : s.infiniteLine first second name = .ok plan) :
    s.Overlooks (.infiniteLine first second name) := by
  simp only [infiniteLine, bind_eq_ok_iff, pure_eq_ok_iff] at h
  obtain ⟨p, hp, course, hcourse, ⟨a, b⟩, hchord, n, hn, curve, hcurve, -⟩ := h
  have hvertices := (Curve.requireVertices_eq_ok_iff.1 (Curve.polyline_eq_ok_iff.1 hcurve).1).2
  rw [List.forall_mem_cons, List.forall_mem_singleton] at hvertices
  exact ⟨p, course, a, b, n, hp, hcourse, hchord, hvertices.1, hvertices.2, hn⟩

theorem finiteNumbers_of_vector {start : Option (Reference α)} {finish : Reference α}
    {name : Option String} (h : s.vector start finish name = .ok plan) :
    FiniteNumbers (Operation.vector start finish name).numbers := by
  -- with and without a start
  cases start with
  | none =>
    simp only [vector, bind_eq_ok_iff] at h
    obtain ⟨-, -, b, hb, -⟩ := h
    exact FiniteNumbers.append_iff.2 ⟨.nil, Registry.finiteNumbers_of_position hb⟩
  | some start =>
    simp only [vector, bind_eq_ok_iff] at h
    obtain ⟨a, ha, b, hb, -⟩ := h
    exact FiniteNumbers.append_iff.2
      ⟨Registry.finiteNumbers_of_position ha, Registry.finiteNumbers_of_position hb⟩

theorem finiteNumbers_of_perpendicular {place base : Reference α} {name : Option String}
    (h : s.perpendicular place base name = .ok plan) :
    FiniteNumbers (Operation.perpendicular place base name).numbers := by
  simp only [perpendicular, bind_eq_ok_iff] at h
  obtain ⟨p, hp, c, hc, -⟩ := h
  simp [Operation.numbers, Registry.numbers_of_curveAt hc, Registry.finiteNumbers_of_position hp]

theorem finiteNumbers_of_parallel {place base : Reference α} {name : Option String}
    (h : s.parallel place base name = .ok plan) :
    FiniteNumbers (Operation.parallel place base name).numbers := by
  simp only [parallel, bind_eq_ok_iff] at h
  obtain ⟨p, hp, c, hc, -⟩ := h
  simp [Operation.numbers, Registry.numbers_of_curveAt hc, Registry.finiteNumbers_of_position hp]

/-! ### Closed curves -/

theorem finiteNumbers_of_polygon {refs : List (Reference α)} {name : Option String}
    (h : s.polygon refs name = .ok plan) : FiniteNumbers (Operation.polygon refs name).numbers := by
  simp only [polygon, ↓ite_throw_bind_eq_ok_iff, bind_eq_ok_iff] at h
  obtain ⟨-, points, hpoints, -⟩ := h
  exact Registry.finiteNumbers_of_positions hpoints

theorem finiteNumbers_of_regularPolygon {center vertex : Reference α} {n : Nat}
    {direction : Option (Reference α)} {name : Option String}
    (h : s.regularPolygon center vertex n direction name = .ok plan) :
    FiniteNumbers (Operation.regularPolygon center vertex n direction name).numbers := by
  simp only [regularPolygon, ↓ite_throw_bind_eq_ok_iff, bind_eq_ok_iff] at h
  obtain ⟨-, -, -, c, hc, v, hv, -, heading, hheading, hfinite, -⟩ := h
  simp only [Bool.or_eq_true, Bool.not_eq_true', not_or, Bool.not_eq_false] at hfinite
  simp only [Operation.numbers, FiniteNumbers.append_iff]
  exact ⟨⟨Registry.finiteNumbers_of_position hc, Registry.finiteNumbers_of_position hv⟩,
    finiteNumbers_of_cornerHeading hheading hfinite.1⟩

theorem finiteNumbers_of_circle {center : Reference α} {size : CircleSize α} {name : Option String}
    (h : s.circle center size name = .ok plan) :
    FiniteNumbers (Operation.circle center size name).numbers := by
  simp only [circle, bind_eq_ok_iff] at h
  obtain ⟨c, hc, radius, hradius, _, hpositive, -⟩ := h
  exact FiniteNumbers.append_iff.2 ⟨Registry.finiteNumbers_of_position hc,
    finiteNumbers_of_circleRadius hradius (isFinite_of_requirePositive hpositive)⟩

theorem finiteNumbers_of_circleThrough {first second third : Reference α} {name : Option String}
    (h : s.circleThrough first second third name = .ok plan) :
    FiniteNumbers (Operation.circleThrough first second third name).numbers := by
  simp only [circleThrough, bind_eq_ok_iff] at h
  obtain ⟨a, ha, b, hb, c, hc, -⟩ := h
  simp only [Operation.numbers, FiniteNumbers.append_iff]
  exact ⟨⟨Registry.finiteNumbers_of_position ha, Registry.finiteNumbers_of_position hb⟩,
    Registry.finiteNumbers_of_position hc⟩

theorem finiteNumbers_of_ellipse {center : Reference α} {rx ry degrees : α} {name : Option String}
    (h : s.ellipse center rx ry degrees name = .ok plan) :
    FiniteNumbers (Operation.ellipse center rx ry degrees name).numbers := by
  simp only [ellipse, ↓ite_throw_bind_eq_ok_iff, bind_eq_ok_iff] at h
  obtain ⟨c, hc, _, hrx, _, hry, hdegrees, -⟩ := h
  simp only [Bool.not_eq_true', Bool.not_eq_false] at hdegrees
  simp only [Operation.numbers, FiniteNumbers.append_iff, FiniteNumbers.cons_iff]
  exact ⟨Registry.finiteNumbers_of_position hc, isFinite_of_requirePositive hrx,
    isFinite_of_requirePositive hry, hdegrees, .nil⟩

/-! ### Measures, motions and limits -/

theorem finiteNumbers_of_distance {first second : Reference α}
    (h : s.measureDistance first second = .ok plan) :
    FiniteNumbers (Operation.distance first second).numbers := by
  simp only [measureDistance, bind_eq_ok_iff] at h
  obtain ⟨a, ha, b, hb, -⟩ := h
  exact FiniteNumbers.append_iff.2
    ⟨Registry.finiteNumbers_of_position ha, Registry.finiteNumbers_of_position hb⟩

theorem finiteNumbers_of_angle {first vertex second : Reference α} {name : Option String}
    (h : s.measureAngle first vertex second name = .ok plan) :
    FiniteNumbers (Operation.angle first vertex second name).numbers := by
  simp only [measureAngle, bind_eq_ok_iff] at h
  obtain ⟨a, ha, b, hb, c, hc, -⟩ := h
  simp only [Operation.numbers, FiniteNumbers.append_iff]
  exact ⟨⟨Registry.finiteNumbers_of_position ha, Registry.finiteNumbers_of_position hb⟩,
    Registry.finiteNumbers_of_position hc⟩

theorem finiteNumbers_of_translate {element : String} {dx dy : α} {copyName : Option String}
    (h : s.translate element dx dy copyName = .ok plan) :
    FiniteNumbers (Operation.translate element dx dy copyName).numbers := by
  simp only [translate, bind_eq_ok_iff] at h
  obtain ⟨_, hdx, _, hdy, -⟩ := h
  simp only [Operation.numbers, FiniteNumbers.cons_iff]
  exact ⟨isFinite_of_requireFinite hdx, isFinite_of_requireFinite hdy, .nil⟩

theorem finiteNumbers_of_rotate {element : String} {pivot : Reference α} {degrees : α}
    {copyName : Option String} (h : s.rotate element pivot degrees copyName = .ok plan) :
    FiniteNumbers (Operation.rotate element pivot degrees copyName).numbers := by
  simp only [rotate, bind_eq_ok_iff] at h
  obtain ⟨p, hp, _, hdegrees, -⟩ := h
  simp only [Operation.numbers, FiniteNumbers.append_iff, FiniteNumbers.cons_iff]
  exact ⟨Registry.finiteNumbers_of_position hp, isFinite_of_requireFinite hdegrees, .nil⟩

theorem finiteNumbers_of_reflect {element : String} {mirror : Reference α}
    {copyName : Option String} (h : s.reflect element mirror copyName = .ok plan) :
    FiniteNumbers (Operation.reflect element mirror copyName).numbers := by
  simp only [reflect, bind_eq_ok_iff] at h
  obtain ⟨m, hm, -⟩ := h
  exact Registry.finiteNumbers_of_position hm

theorem finiteNumbers_of_setAxisLimits {minX maxX minY maxY : α}
    (h : s.setAxisLimits minX maxX minY maxY = .ok plan) :
    FiniteNumbers (Operation.setAxisLimits minX maxX minY maxY).numbers := by
  simp only [setAxisLimits, bind_eq_ok_iff] at h
  obtain ⟨_, hminX, _, hmaxX, _, hminY, _, hmaxY, -⟩ := h
  simp only [Operation.numbers, FiniteNumbers.cons_iff]
  exact ⟨isFinite_of_requireLimit hminX, isFinite_of_requireLimit hmaxX,
    isFinite_of_requireLimit hminY, isFinite_of_requireLimit hmaxY, .nil⟩

/-! ### All operations -/

/-- **What is planned has finite arguments, or is an infinite line.** -/
theorem finiteNumbers_or_overlooks (h : op.plan s = .ok plan) :
    FiniteNumbers op.numbers ∨ s.Overlooks op := by
  -- only an infinite line is the second
  cases op with
  | point place name => exact .inl (finiteNumbers_of_point h)
  | label place content name => exact .inl (finiteNumbers_of_label h)
  | line first second name => exact .inl (finiteNumbers_of_line h)
  | segment start finish name => exact .inl (finiteNumbers_of_segment h)
  | infiniteLine first second name => exact .inr (overlooks_of_infiniteLine h)
  | vector start finish name => exact .inl (finiteNumbers_of_vector h)
  | polygon refs name => exact .inl (finiteNumbers_of_polygon h)
  | regularPolygon center vertex n direction name => exact .inl (finiteNumbers_of_regularPolygon h)
  | circle center size name => exact .inl (finiteNumbers_of_circle h)
  | circleThrough first second third name => exact .inl (finiteNumbers_of_circleThrough h)
  | ellipse center rx ry degrees name => exact .inl (finiteNumbers_of_ellipse h)
  | midpoint refs name => exact .inl (finiteNumbers_of_midpoint h)
  | intersection first second name => exact .inl (finiteNumbers_of_intersection h)
  | perpendicular place base name => exact .inl (finiteNumbers_of_perpendicular h)
  | parallel place base name => exact .inl (finiteNumbers_of_parallel h)
  | distance first second => exact .inl (finiteNumbers_of_distance h)
  | angle first vertex second name => exact .inl (finiteNumbers_of_angle h)
  | translate element dx dy copyName => exact .inl (finiteNumbers_of_translate h)
  | rotate element pivot degrees copyName => exact .inl (finiteNumbers_of_rotate h)
  | reflect element mirror copyName => exact .inl (finiteNumbers_of_reflect h)
  | setAxisLimits minX maxX minY maxY => exact .inl (finiteNumbers_of_setAxisLimits (s := s) h)
  | recolor element color => exact .inl .nil
  | rename old new => exact .inl .nil
  | setTitle title => exact .inl .nil
  | showAxes visible => exact .inl .nil

/-! ## What is refused -/

/-- An infinite line with a finite chord is drawn. -/
theorem perform_of_overlooks (hs : s.registry.Indexed) (h : s.Overlooks op) :
    ∃ name, (s.perform op).1 = .ok (.name name) := by
  obtain ⟨name, curve, hplan, wanted, hname⟩ := exists_plan_of_overlooks h
  obtain ⟨r, -, hperform⟩ := exists_perform_addOne hplan (requireFree_of_nameFor hs hname)
  exact ⟨name, by rw [hperform]⟩

/-- **Arguments that are not finite are refused, and the session stays as it was**, exactly unless
they say how an infinite line goes on that has a finite chord all the same. -/
theorem perform_of_not_finite_iff (hs : s.Reachable) (op : Operation α)
    (hnumbers : ∃ x ∈ op.numbers, Scalar.isFinite x = false) :
    (∃ e, s.perform op = (.error e, s)) ↔ ¬s.Overlooks op := by
  constructor
  · rintro ⟨e, he⟩ hoverlooks
    obtain ⟨name, hok⟩ := perform_of_overlooks hs.indexed hoverlooks
    rw [he] at hok
    cases hok
  · intro hoverlooks
    cases hplan : op.plan s with
    | error e => exact ⟨e, perform_of_error hplan⟩
    | ok plan =>
      obtain ⟨x, hx, hinfinite⟩ := hnumbers
      rcases finiteNumbers_or_overlooks hplan with hfinite | h
      · rw [hfinite x hx] at hinfinite
        cases hinfinite
      · exact absurd h hoverlooks

end Session

end Straightedge
