import Straightedge.Proofs.Registry.LeastNames
import Straightedge.Proofs.Session.Footprint

/-! # Generated names never collide

An operation that is not given a name generates the least one that is free, and so it collides with
nothing. One that collides was called with the name, there is a figure under it, and nothing is
changed.

* **`Collides`**: what a computation may collide with.
* **`Operation.wanted`**: the names that an operation is called with.
* **`Session.collides_plan`**, **`Session.collides_enact`**: neither a plan nor what it changes
  collides with another name.
* **`Session.LeastNames`**: a session that generates the least free names.
* **`Session.leastNames_and_collisions_taken`**: every session does, and only taken names
  collide. -/

namespace Straightedge

variable {α β γ : Type}

/-! ## Computations that may collide -/

/-- **A computation collides only with names that have a property.** -/
def Collides (P : String → Prop) (x : Except ConstructionError β) : Prop :=
  ∀ n, x = .error (.nameCollision n) → P n

namespace Collides

variable {P : String → Prop}

theorem ok (b : β) : Collides P (.ok b) := fun _ h => nomatch h

theorem pure (b : β) : Collides P (Pure.pure b) := ok b

/-- Another error is no collision. -/
theorem error {e : ConstructionError} (h : e.takenName? = none) :
    Collides P (.error e : Except ConstructionError β) := by
  rintro n ⟨⟩
  cases h

/-- A computation collides as its parts do. -/
theorem bind {x : Except ConstructionError γ} {f : γ → Except ConstructionError β}
    (hx : Collides P x) (hf : ∀ c, Collides P (f c)) : Collides P (x >>= f) := by
  intro n h
  cases x with
  | error e =>
    cases h
    exact hx n rfl
  | ok c => exact hf c n h

theorem ite {c : Prop} [Decidable c] {x y : Except ConstructionError β} (hx : Collides P x)
    (hy : Collides P y) : Collides P (if c then x else y) := by
  split
  · exact hx
  · exact hy

/-- A guard that raises another error makes no collision. -/
theorem guard {c : Prop} [Decidable c] {e : ConstructionError} (h : e.takenName? = none)
    {f : γ → Except ConstructionError β} {y : Except ConstructionError β} (hy : Collides P y) :
    Collides P (if c then throw e >>= f else y) :=
  ite (error h) hy

/-- Going through a list collides as its items do. -/
theorem mapM {f : γ → Except ConstructionError β} (hf : ∀ c, Collides P (f c)) (cs : List γ) :
    Collides P (cs.mapM f) := by
  induction cs with
  | nil => exact pure []
  | cons c cs ih =>
    rw [List.mapM_cons]
    exact bind (hf c) fun b => bind ih fun bs => pure (b :: bs)

end Collides

variable {P : String → Prop}

/-! ## What never collides -/

namespace Registry

variable (r : Registry α)

theorem collides_find (name : String) : Collides P (r.find name) := by
  unfold find
  split
  · exact .ok _
  · exact .error rfl

variable [Scalar α] [Numeral α]

theorem collides_position (place : Reference α) : Collides P (r.position place) := by
  cases place with
  | name n =>
    refine .bind (r.collides_find n) fun figure => ?_
    cases figure with
    | point m => exact .pure _
    | curve c => exact .error rfl
    | label l => exact .error rfl
  | position p => exact .ite (.ok _) (.error rfl)
  | number x => exact .error rfl
  | direction v => exact .error rfl

theorem collides_positions (refs : List (Reference α)) : Collides P (r.positions refs) :=
  .mapM r.collides_position refs

omit [Scalar α] [Numeral α] in
theorem collides_curve (name : String) : Collides P (r.curve name) := by
  refine .bind (r.collides_find name) fun figure => ?_
  cases figure with
  | point m => exact .error rfl
  | curve c => exact .pure _
  | label l => exact .error rfl

theorem collides_curveAt (base : Reference α) : Collides P (r.curveAt base) := by
  cases base with
  | name n => exact r.collides_curve n
  | position p => exact .error rfl
  | number x => exact .error rfl
  | direction v => exact .error rfl

end Registry

section Plane

variable [Scalar α]

theorem Curve.collides_requireVertices {vertices : List (Coord α)} :
    Collides P (Curve.requireVertices vertices) :=
  .ite (.error rfl) (.ite (.ok _) (.error rfl))

theorem Curve.collides_polyline {vertices : List (Coord α)} {stroke : Stroke α}
    {tooltip : Option String} : Collides P (Curve.polyline vertices stroke tooltip) :=
  .bind Curve.collides_requireVertices fun _ => .pure _

theorem Curve.collides_ring {tol : Tolerance α} {vertices : List (Coord α)} {stroke : Stroke α}
    {fill tooltip : Option String} : Collides P (Curve.ring tol vertices stroke fill tooltip) :=
  .bind Curve.collides_requireVertices fun _ => .pure _

theorem Line.collides_chord {tol : Tolerance α} {w : Window α} {p : Coord α}
    {course : Line.Course α} : Collides P (Line.chord tol w p course) := by
  have hdirection : Collides P (course.direction tol p) := by
    cases course with
    | through q => exact .ite (.error rfl) (.ok _)
    | along v => exact .ite (.error rfl) (.ok _)
  refine .bind hdirection fun v => .ite (.ite (.pure _) (.error rfl)) ?_
  simp only
  split
  · exact .pure _
  · exact .error rfl

theorem Line.collides_intersection {tol : Tolerance α} {a b c d : Coord α} :
    Collides P (Line.intersection tol a b c d) :=
  .ite (.error rfl) (.ite (.error rfl) (.ok _))

theorem Line.collides_foot {tol : Tolerance α} {p a b : Coord α} :
    Collides P (Line.foot tol p a b) :=
  .ite (.error rfl) (.ok _)

theorem Line.collides_circumcenter {tol : Tolerance α} {a b c : Coord α} :
    Collides P (Line.circumcenter tol a b c) :=
  Line.collides_intersection

end Plane

namespace Session

variable [Scalar α] [Numeral α] (s : Session α)

omit [Scalar α] [Numeral α] in
theorem collides_requireVertexCount {what : String} {n : Nat} :
    Collides P (requireVertexCount what n) :=
  .ite (.error rfl) (.ok _)

theorem collides_requirePositive {what : String} {x : α} : Collides P (requirePositive what x) :=
  .ite (.error rfl) (.ok _)

theorem collides_requireFinite {what : String} {x : α} : Collides P (requireFinite what x) :=
  .ite (.ok _) (.error rfl)

theorem collides_requireLimit {what : String} {x : α} : Collides P (requireLimit what x) :=
  .ite (.ok _) (.error rfl)

theorem collides_segmentEnd (a : Coord α) (finish : Reference α) :
    Collides P (s.segmentEnd a finish) := by
  cases finish with
  | number length => exact .guard rfl (.guard rfl (.pure _))
  | name n => exact s.registry.collides_position (.name n)
  | position p => exact s.registry.collides_position (.position p)
  | direction v => exact s.registry.collides_position (.direction v)

theorem collides_course (second : Reference α) : Collides P (s.course second) := by
  cases second with
  | name n =>
    refine .bind (s.registry.collides_find n) fun figure => ?_
    cases figure with
    | point m => exact .pure _
    | curve c => exact .pure _
    | label l => exact .error rfl
  | position p => exact .pure _
  | direction v => exact .pure _
  | number x => exact .error rfl

theorem collides_cornerHeading (c v : Coord α) (direction : Option (Reference α)) :
    Collides P (cornerHeading c v direction) := by
  unfold cornerHeading
  split
  · exact .pure _
  · exact .pure _
  · exact .pure _
  · exact .error rfl

theorem collides_center (refs : List (Reference α)) : Collides P (s.center refs) := by
  unfold center
  split
  · exact .error rfl
  · refine .bind (s.registry.collides_curveAt _) fun curve => .guard rfl ?_
    split
    · exact .pure _
    · exact .error rfl
  · exact .bind (s.registry.collides_position _) fun a =>
      .bind (s.registry.collides_position _) fun b => .pure _
  · refine .bind (s.registry.collides_positions _) fun points => ?_
    split
    · exact .pure _
    · exact .error rfl

theorem collides_circleRadius (c : Coord α) (size : CircleSize α) :
    Collides P (s.circleRadius c size) := by
  cases size with
  | radius r => exact .pure _
  | segment name => exact .bind (s.registry.collides_curve name) fun curve => .pure _
  | through place => exact .bind (s.registry.collides_position place) fun p => .pure _

end Session

/-! ## What may collide -/

/-- Under a taken name there is a figure. -/
theorem Registry.Indexed.exists_get?_of_contains {r : Registry α} (h : r.Indexed) {name : String}
    (htaken : r.contains name = true) : ∃ figure, r.get? name = some figure := by
  obtain ⟨⟨_, figure⟩, hentry, rfl⟩ := List.mem_map.1 ((h.contains_iff name).1 htaken)
  exact ⟨figure, (h.get?_eq_some_iff _ figure).2 hentry⟩

/-- A name for a new figure collides if it is taken. -/
theorem Registry.collides_requireFree (r : Registry α) {name : String}
    (hP : r.contains name = true → P name) : Collides P (r.requireFree name) := by
  unfold requireFree
  split
  · exact .error rfl
  · split
    · rename_i htaken
      rintro n ⟨⟩
      exact hP htaken
    · exact .ok _

/-- A figure that changes where it stands collides with nothing. -/
theorem Registry.collides_update (r : Registry α) (name : String) (f : Figure α → Figure α) :
    Collides P (r.update name f) := by
  unfold update
  split
  · exact .ok _
  · exact .error rfl

/-- A new name for a figure collides if it is taken. -/
theorem Registry.collides_rename (r : Registry α) {old new : String}
    (hP : r.contains new = true → P new) : Collides P (r.rename old new) := by
  refine .bind (r.collides_requireFree hP) fun _ => ?_
  split
  · exact .error rfl
  · split
    · exact .error rfl
    · exact .pure _

namespace Session

/-- A wanted name for a new figure collides if it is taken; a generated one does not. -/
theorem collides_nameFor (s : Session α) {wanted : Option String} {stem : String}
    (hP : ∀ n ∈ wanted.toList, s.registry.contains n = true → P n) :
    Collides P (s.nameFor wanted stem) := by
  cases wanted with
  | none => exact .pure _
  | some name =>
    exact .bind (s.registry.collides_requireFree (hP name (List.mem_singleton_self name)))
      fun _ => .pure _

variable [Scalar α] [Numeral α] (s : Session α)

omit [Numeral α] in
theorem collides_transform {element : String} {f : Affine α} {copyName : Option String}
    (hP : ∀ n ∈ copyName.toList, s.registry.contains n = true → P n) :
    Collides P (s.transform element f copyName) := by
  refine .bind (s.registry.collides_find element) fun figure => .guard rfl ?_
  cases copyName with
  | none => exact .pure _
  | some target =>
    exact .bind (s.registry.collides_requireFree (hP target (List.mem_singleton_self target)))
      fun _ => .pure _

theorem collides_sampledCircle {center : Coord α} {radius : α} {name : Option String}
    (hP : ∀ n ∈ name.toList, s.registry.contains n = true → P n) :
    Collides P (s.sampledCircle center radius name) :=
  .bind collides_requireVertexCount fun _ => .bind (s.collides_nameFor hP) fun _ =>
    .bind Curve.collides_ring fun _ => .pure _

omit [Scalar α] [Numeral α] in
/-- The wanted name of an angle collides if the name of its arc or that of its label is taken; a
generated one does not. -/
theorem collides_angleBase {wanted : Option String}
    (hP : ∀ base, wanted = some base → ∀ n ∈ [arcName base, angleLabelName base],
      s.registry.contains n = true → P n) :
    Collides P (s.angleBase wanted) := by
  cases wanted with
  | none => exact .pure _
  | some base =>
    have hbase := hP base rfl
    simp only [List.forall_mem_cons] at hbase
    exact .bind (s.registry.collides_requireFree hbase.1) fun _ =>
      .bind (s.registry.collides_requireFree hbase.2.1) fun _ => .pure _

end Session

/-! ## Plans -/

namespace Session

variable [Scalar α] [Numeral α] (s : Session α)

section Named

variable {name : Option String} (hP : ∀ n ∈ name.toList, s.registry.contains n = true → P n)
include hP

theorem collides_point (place : Reference α) : Collides P (s.point place name) := by
  refine .guard rfl (.bind (s.registry.collides_position place) fun _ => ?_)
  exact .bind (s.collides_nameFor hP) fun _ => .pure _

theorem collides_label (place : Reference α) (content : String) :
    Collides P (s.label place content name) := by
  refine .bind (s.registry.collides_position place) fun _ => ?_
  exact .bind (s.collides_nameFor hP) fun _ => .pure _

theorem collides_midpoint (refs : List (Reference α)) : Collides P (s.midpoint refs name) := by
  refine .bind (s.collides_center refs) fun _ => ?_
  exact .bind (s.collides_nameFor hP) fun _ => .pure _

theorem collides_intersection (first second : Reference α) :
    Collides P (s.intersection first second name) := by
  refine .bind (s.registry.collides_curveAt first) fun _ => ?_
  refine .bind (s.registry.collides_curveAt second) fun _ => ?_
  refine .bind Line.collides_intersection fun _ => ?_
  exact .bind (s.collides_nameFor hP) fun _ => .pure _

theorem collides_line (first second : Reference α) : Collides P (s.line first second name) := by
  refine .bind (s.registry.collides_position first) fun _ => ?_
  refine .bind (s.registry.collides_position second) fun _ => ?_
  exact .bind (s.collides_nameFor hP) fun _ => .bind Curve.collides_polyline fun _ => .pure _

theorem collides_segment (start finish : Reference α) :
    Collides P (s.segment start finish name) := by
  refine .bind (s.registry.collides_position start) fun a => ?_
  refine .bind (s.collides_segmentEnd a finish) fun _ => ?_
  exact .bind (s.collides_nameFor hP) fun _ => .bind Curve.collides_polyline fun _ => .pure _

theorem collides_infiniteLine (first second : Reference α) :
    Collides P (s.infiniteLine first second name) := by
  refine .bind (s.registry.collides_position first) fun _ => ?_
  refine .bind (s.collides_course second) fun _ => ?_
  refine .bind Line.collides_chord fun _ => ?_
  exact .bind (s.collides_nameFor hP) fun _ => .bind Curve.collides_polyline fun _ => .pure _

theorem collides_vector (start : Option (Reference α)) (finish : Reference α) :
    Collides P (s.vector start finish name) := by
  -- with and without a start
  cases start with
  | none =>
    refine .bind (.pure _) fun _ => .bind (s.registry.collides_position finish) fun _ => ?_
    exact .bind (s.collides_nameFor hP) fun _ => .bind Curve.collides_polyline fun _ => .pure _
  | some place =>
    refine .bind (s.registry.collides_position place) fun _ => ?_
    refine .bind (s.registry.collides_position finish) fun _ => ?_
    exact .bind (s.collides_nameFor hP) fun _ => .bind Curve.collides_polyline fun _ => .pure _

theorem collides_perpendicular (place base : Reference α) :
    Collides P (s.perpendicular place base name) := by
  refine .bind (s.registry.collides_position place) fun _ => ?_
  refine .bind (s.registry.collides_curveAt base) fun _ => ?_
  refine .bind Line.collides_foot fun _ => ?_
  exact .bind (s.collides_nameFor hP) fun _ => .bind Curve.collides_polyline fun _ => .pure _

theorem collides_parallel (place base : Reference α) :
    Collides P (s.parallel place base name) := by
  refine .bind (s.registry.collides_position place) fun _ => ?_
  refine .bind (s.registry.collides_curveAt base) fun _ => .guard rfl ?_
  exact .bind (s.collides_nameFor hP) fun _ => .bind Curve.collides_polyline fun _ => .pure _

theorem collides_polygon (refs : List (Reference α)) : Collides P (s.polygon refs name) := by
  refine .guard rfl (.bind (s.registry.collides_positions refs) fun _ => ?_)
  exact .bind (s.collides_nameFor hP) fun _ => .bind Curve.collides_ring fun _ => .pure _

theorem collides_regularPolygon (center vertex : Reference α) (n : Nat)
    (direction : Option (Reference α)) :
    Collides P (s.regularPolygon center vertex n direction name) := by
  refine .guard rfl (.bind collides_requireVertexCount fun _ => ?_)
  refine .bind (s.registry.collides_position center) fun c => ?_
  refine .bind (s.registry.collides_position vertex) fun v => .guard rfl ?_
  refine .bind (collides_cornerHeading c v direction) fun _ => .guard rfl ?_
  exact .bind (s.collides_nameFor hP) fun _ => .bind Curve.collides_ring fun _ => .pure _

theorem collides_circle (center : Reference α) (size : CircleSize α) :
    Collides P (s.circle center size name) := by
  refine .bind (s.registry.collides_position center) fun c => ?_
  refine .bind (s.collides_circleRadius c size) fun _ => ?_
  exact .bind collides_requirePositive fun _ => s.collides_sampledCircle hP

theorem collides_circleThrough (first second third : Reference α) :
    Collides P (s.circleThrough first second third name) := by
  refine .bind (s.registry.collides_position first) fun _ => ?_
  refine .bind (s.registry.collides_position second) fun _ => ?_
  refine .bind (s.registry.collides_position third) fun _ => ?_
  refine .bind Line.collides_circumcenter fun _ => ?_
  exact .bind collides_requirePositive fun _ => s.collides_sampledCircle hP

theorem collides_ellipse (center : Reference α) (rx ry degrees : α) :
    Collides P (s.ellipse center rx ry degrees name) := by
  refine .bind (s.registry.collides_position center) fun _ => ?_
  refine .bind collides_requirePositive fun _ => .bind collides_requirePositive fun _ => ?_
  refine .guard rfl (.bind collides_requireVertexCount fun _ => ?_)
  exact .bind (s.collides_nameFor hP) fun _ => .bind Curve.collides_ring fun _ => .pure _

theorem collides_translate (element : String) (dx dy : α) :
    Collides P (s.translate element dx dy name) := by
  refine .bind collides_requireFinite fun _ => .bind collides_requireFinite fun _ => ?_
  exact s.collides_transform hP

theorem collides_rotate (element : String) (pivot : Reference α) (degrees : α) :
    Collides P (s.rotate element pivot degrees name) := by
  refine .bind (s.registry.collides_position pivot) fun _ => ?_
  exact .bind collides_requireFinite fun _ => s.collides_transform hP

theorem collides_reflect (element : String) (mirror : Reference α) :
    Collides P (s.reflect element mirror name) :=
  .bind (s.registry.collides_position mirror) fun _ => s.collides_transform hP

end Named

theorem collides_measureDistance (first second : Reference α) :
    Collides P (s.measureDistance first second) := by
  refine .bind (s.registry.collides_position first) fun _ => ?_
  refine .bind (s.registry.collides_position second) fun _ => ?_
  exact .bind Curve.collides_polyline fun _ => .pure _

theorem collides_measureAngle (first vertex second : Reference α) {name : Option String}
    (hP : ∀ base, name = some base → ∀ n ∈ [arcName base, angleLabelName base],
      s.registry.contains n = true → P n) :
    Collides P (s.measureAngle first vertex second name) := by
  refine .bind (s.registry.collides_position first) fun _ => ?_
  refine .bind (s.registry.collides_position vertex) fun _ => ?_
  refine .bind (s.registry.collides_position second) fun _ => .guard rfl ?_
  refine .bind (s.collides_angleBase hP) fun _ => ?_
  exact .bind collides_requireVertexCount fun _ => .bind Curve.collides_polyline fun _ => .pure _

omit [Scalar α] [Numeral α] in
theorem collides_recolor (element color : String) : Collides P (s.recolor element color) :=
  .guard rfl (.bind (s.registry.collides_find element) fun _ => .pure _)

theorem collides_setAxisLimits (minX maxX minY maxY : α) :
    Collides P (s.setAxisLimits minX maxX minY maxY) := by
  refine .bind collides_requireLimit fun _ => .bind collides_requireLimit fun _ => ?_
  refine .bind collides_requireLimit fun _ => .bind collides_requireLimit fun _ => ?_
  exact .guard rfl (.pure _)

end Session

/-! ## Operations -/

/-- **The names that an operation is called with**, for what it makes or for what it renames. -/
def Operation.wanted : Operation α → List String
  | .rename _ new => [new]
  | op => op.newNames

namespace Session

variable [Scalar α] [Numeral α] (s : Session α)

/-- **A plan collides only with a name that its operation is called with, and only if it is
taken.** -/
theorem collides_plan {op : Operation α}
    (hP : ∀ n ∈ op.wanted, s.registry.contains n = true → P n) : Collides P (op.plan s) := by
  cases op with
  | point place name => exact s.collides_point hP place
  | label place content name => exact s.collides_label hP place content
  | line first second name => exact s.collides_line hP first second
  | segment start finish name => exact s.collides_segment hP start finish
  | infiniteLine first second name => exact s.collides_infiniteLine hP first second
  | vector start finish name => exact s.collides_vector hP start finish
  | polygon refs name => exact s.collides_polygon hP refs
  | regularPolygon center vertex n direction name =>
    exact s.collides_regularPolygon hP center vertex n direction
  | circle center size name => exact s.collides_circle hP center size
  | circleThrough first second third name => exact s.collides_circleThrough hP first second third
  | ellipse center rx ry degrees name => exact s.collides_ellipse hP center rx ry degrees
  | midpoint refs name => exact s.collides_midpoint hP refs
  | intersection first second name => exact s.collides_intersection hP first second
  | perpendicular place base name => exact s.collides_perpendicular hP place base
  | parallel place base name => exact s.collides_parallel hP place base
  | distance first second => exact s.collides_measureDistance first second
  | angle first vertex second name =>
    refine s.collides_measureAngle first vertex second fun base hbase n hn => ?_
    subst hbase
    exact hP n hn
  | translate element dx dy copyName => exact s.collides_translate hP element dx dy
  | rotate element pivot degrees copyName => exact s.collides_rotate hP element pivot degrees
  | reflect element mirror copyName => exact s.collides_reflect hP element mirror
  | recolor element color => exact s.collides_recolor element color
  | rename old new => exact .pure _
  | setTitle title => exact .pure _
  | setAxisLimits minX maxX minY maxY => exact s.collides_setAxisLimits minX maxX minY maxY
  | showAxes visible => exact .pure _

omit [Scalar α] [Numeral α] in
/-- One change collides where it does. -/
theorem collides_enact_single {s : Session α} {c : Change α} (h : Collides P (s.change c)) :
    Collides P (s.enact [c]).1 := by
  cases hchange : s.change c with
  | ok s' =>
    rw [enact_cons_of_ok hchange]
    exact .ok ()
  | error e =>
    rw [enact_cons_of_error hchange]
    intro n hn
    cases hn
    exact h n hchange

omit [Scalar α] [Numeral α] in
theorem collides_replace {name : String} {figure : Figure α} :
    Collides P (s.change (.replace name figure)) :=
  .bind (s.registry.collides_update name _) fun _ => .pure _

omit [Scalar α] [Numeral α] in
/-- A change of a name collides if the new one is taken. -/
theorem collides_rename {old new : String} (hP : s.registry.contains new = true → P new) :
    Collides P (s.change (.rename old new)) :=
  .bind (s.registry.collides_rename hP) fun _ => .pure _

/-- Figures are added without a collision, for their names are free. -/
theorem collides_enact_of_adds {s : Session α} {op : Operation α} {plan : Plan α}
    (heffect : s.Effect op plan) {count : Nat} {names : List String}
    (hadds : plan.Adds count names) : Collides P (s.enact plan.changes).1 := by
  obtain ⟨entries, hchanges, -, hfree, hnodup⟩ := heffect.exists_entries hadds
  rw [hchanges, (enact_additions entries hfree hnodup).1]
  exact .ok ()

theorem collides_enact_of_transform {s : Session α} {op : Operation α} {plan : Plan α}
    (heffect : s.Effect op plan) {element : String} {f : Affine α} {copyName : Option String}
    (h : s.transform element f copyName = .ok plan) : Collides P (s.enact plan.changes).1 := by
  cases copyName with
  | some target => exact collides_enact_of_adds heffect (adds_transform h rfl)
  | none =>
    obtain ⟨figure, -, -, rfl⟩ := transform_eq_ok_iff.1 h
    exact collides_enact_single s.collides_replace

/-- **What is planned collides only if a figure is renamed, and only if its new name is taken.** -/
theorem collides_enact {s : Session α} (hs : s.registry.Indexed) {op : Operation α}
    {plan : Plan α} (hplan : op.plan s = .ok plan)
    (hP : ∀ n ∈ op.wanted, s.registry.contains n = true → P n) :
    Collides P (s.enact plan.changes).1 := by
  have heffect := effect_of_plan hs hplan
  cases op
  case rename old new =>
    cases hplan
    exact collides_enact_single (s.collides_rename (hP new (List.mem_singleton_self new)))
  case translate element dx dy copyName =>
    exact collides_enact_of_transform heffect (transform_of_translate hplan)
  case rotate element pivot degrees copyName =>
    obtain ⟨p, -, htransform⟩ := transform_of_rotate hplan
    exact collides_enact_of_transform heffect htransform
  case reflect element mirror copyName =>
    obtain ⟨m, -, htransform⟩ := transform_of_reflect hplan
    exact collides_enact_of_transform heffect htransform
  case recolor element color =>
    simp only [Operation.plan, recolor, ↓ite_throw_bind_eq_ok_iff, bind_eq_ok_iff,
      pure_eq_ok_iff] at hplan
    obtain ⟨-, figure, -, rfl⟩ := hplan
    exact collides_enact_single s.collides_replace
  case setTitle title =>
    cases hplan
    exact .ok ()
  case setAxisLimits minX maxX minY maxY =>
    simp only [Operation.plan, setAxisLimits, ↓ite_throw_bind_eq_ok_iff, bind_eq_ok_iff,
      pure_eq_ok_iff] at hplan
    obtain ⟨-, -, -, -, -, -, -, -, -, rfl⟩ := hplan
    exact .ok ()
  case showAxes visible =>
    cases hplan
    exact .ok ()
  all_goals exact collides_enact_of_adds heffect (adds_of_plan hplan rfl)

/-- **An operation collides only with a taken name that it is called with.** -/
theorem collides_perform {s : Session α} (hs : s.registry.Indexed) (op : Operation α) :
    Collides (fun n => n ∈ op.wanted ∧ s.registry.contains n = true) (s.perform op).1 := by
  intro n h
  cases hplan : op.plan s with
  | error e =>
    rw [perform_of_error hplan] at h
    cases h
    exact s.collides_plan (P := fun n => n ∈ op.wanted ∧ s.registry.contains n = true)
      (fun _ => And.intro) n hplan
  | ok plan =>
    rw [perform_of_ok hplan] at h
    cases henact : (s.enact plan.changes).1 with
    | ok u => rw [henact] at h; cases h
    | error e =>
      rw [henact] at h
      cases h
      exact collides_enact (P := fun n => n ∈ op.wanted ∧ s.registry.contains n = true) hs hplan
        (fun _ => And.intro) n henact

/-- No figure is renamed to a taken name. -/
theorem perform_rename_of_contains {s : Session α} (old : String) {new : String}
    (htaken : s.registry.contains new = true) (hne : new ≠ "") :
    (s.perform (.rename old new)).1 = .error (.nameCollision new) := by
  have hplan : (Operation.rename old new).plan s = .ok ⟨[.rename old new], .name new⟩ := rfl
  have hfree : s.registry.requireFree new = .error (.nameCollision new) := by
    rw [Registry.requireFree, if_neg (mt String.isEmpty_iff.1 hne), if_pos htaken]
  have hchange : s.change (.rename old new) = .error (.nameCollision new) := by
    rw [change, Registry.rename, hfree]
    rfl
  rw [perform_of_ok hplan, enact_cons_of_error hchange]
  rfl

/-- A name that a successful operation was called with was free. -/
theorem not_contains_of_wanted {s : Session α} (hs : s.Reachable) {op : Operation α} {v : Value α}
    (h : (s.perform op).1 = .ok v) {n : String} (hn : n ∈ op.wanted) :
    s.registry.contains n = false := by
  refine eq_false_of_ne_true fun htaken => ?_
  by_cases hrename : ∃ old new, op = .rename old new
  · obtain ⟨old, new, rfl⟩ := hrename
    obtain rfl := List.mem_singleton.1 hn
    obtain ⟨-, r, hr, -⟩ := perform_rename_eq_ok_iff.1 (Prod.ext h rfl)
    have hfree := ((Registry.rename_eq_ok_iff ..).1 hr).1
    rw [((Registry.requireFree_eq_ok_iff ..).1 hfree).2] at htaken
    cases htaken
  · have hgiven : n ∈ op.newNames := by
      cases op
      case rename old new => exact absurd ⟨old, new, rfl⟩ hrename
      all_goals exact hn
    obtain ⟨hnone, -⟩ := newNames_of_perform hs (Prod.ext h rfl) hgiven
    obtain ⟨figure, hfigure⟩ := hs.indexed.exists_get?_of_contains htaken
    rw [hnone] at hfigure
    cases hfigure

end Session

/-! ## Requests to a registry -/

namespace Registry

/-- A change that is refused for a taken name leaves the registry as it is. -/
theorem ofChange_of_collision {r : Registry α} (hr : r.Indexed)
    {x : Except ConstructionError (Registry α)} (hx : Collides (fun n => r.contains n = true) x)
    {n : String} (h : (Reply.ofChange r x : Reply α × Registry α).1 =
      .change (.error (.nameCollision n))) :
    (∃ figure, r.get? n = some figure) ∧ (Reply.ofChange r x : Reply α × Registry α).2 = r := by
  cases x with
  | ok r' => cases h
  | error e =>
    cases h
    exact ⟨hr.exists_get?_of_contains (hx n rfl), rfl⟩

/-- **A registry collides only with a name that is taken, and stays as it is.** -/
theorem serve_of_collision {r : Registry α} (hr : r.Indexed) {request : Request α} {n : String}
    (h : (r.serve request).1 = .change (.error (.nameCollision n))) :
    (∃ figure, r.get? n = some figure) ∧ (r.serve request).2 = r := by
  cases request with
  | insert name figure =>
    exact ofChange_of_collision hr (.bind (r.collides_requireFree id) fun _ => .pure _) h
  | edit name f => exact ofChange_of_collision hr (r.collides_update name f) h
  | rename old new => exact ofChange_of_collision hr (r.collides_rename id) h
  | clear => exact ofChange_of_collision hr (.ok _) h
  | _ => cases h

end Registry

namespace Session

/-! ## Least names -/

/-- **A session generates the least names**: a stem gets the smallest number from one on that makes
it free, a taken base the smallest one from two on, and an angle the smallest one from one on that
frees both of its names. The searches for them end without a bound. -/
structure LeastNames (s : Session α) : Prop where
  /-- A stem is numbered from one on. -/
  freshName : ∀ stem, ∃ k, LeastFree (fun i => s.registry.contains (Registry.numbered stem i)) 1 k ∧
    s.registry.freshName stem = Registry.numbered stem k
  /-- A free base stays as it is. -/
  freshVariant_of_free : ∀ base, s.registry.contains base = false →
    s.registry.freshVariant base = base
  /-- A taken base is numbered from two on. -/
  freshVariant_of_taken : ∀ base, s.registry.contains base = true →
    ∃ k, LeastFree (fun i => s.registry.contains (Registry.numbered base i)) 2 k ∧
      s.registry.freshVariant base = Registry.numbered base k
  /-- An angle is numbered from one on. -/
  angleBase : ∃ k, LeastFree (fun i => s.registry.contains (arcName (Registry.numbered "Angle" i)) ||
      s.registry.contains (angleLabelName (Registry.numbered "Angle" i))) 1 k ∧
    s.angleBase none = .ok (Registry.numbered "Angle" k)

/-- **With a right index, names are the least ones.** -/
theorem leastNames_of_indexed {s : Session α} (hs : s.registry.Indexed) : s.LeastNames where
  freshName := hs.leastFree_freshName
  freshVariant_of_free base hfree := by
    rw [Registry.freshVariant, if_neg (ne_true_of_eq_false hfree)]
  freshVariant_of_taken base htaken := hs.leastFree_freshVariant htaken
  angleBase := by
    refine ⟨_, hs.leastFree_pairedNumber (fun i j hij => ?_) (fun i j hij => ?_)
      (fun i j => arcName_ne_angleLabelName _ _), rfl⟩
    · exact Registry.numbered_injective "Angle" ((String.append_left_inj _).1 hij)
    · exact Registry.numbered_injective "Angle" ((String.append_left_inj _).1 hij)

variable [Scalar α] [Numeral α]

/-- **Generated names are the least free ones, and only wanted names collide.** Over every registry
that requests lead to and in every session that operations lead to, names are generated as the least
free ones. A registry or an operation that answers with a collision has a figure under the name and
changes nothing; the operation was called with the name, so one that is called without any never
collides. And no operation succeeds that is called with a taken name. -/
theorem leastNames_and_collisions_taken (requests : List (Request α)) (settings : Settings α)
    (ops : List (Operation α)) :
    let r := ((Registry.empty : Registry α).serveAll requests).2
    let s := (new settings).after ops
    (∀ t : Session α, t.registry = r ∨ t = s → t.LeastNames) ∧
    (∀ request n, (r.serve request).1 = .change (.error (.nameCollision n)) →
      (∃ figure, r.get? n = some figure) ∧ (r.serve request).2 = r) ∧
    (∀ op n, (s.perform op).1 = .error (.nameCollision n) →
      n ∈ op.wanted ∧ (∃ figure, s.registry.get? n = some figure) ∧ (s.perform op).2 = s) ∧
    ∀ op v n, (s.perform op).1 = .ok v → n ∈ op.wanted → s.registry.contains n = false := by
  intro r s
  have hr : r.Indexed := (Registry.serveAll_represents Registry.represents_empty requests).2.indexed
  have hs : s.Reachable := (Reachable.new settings).after ops
  refine ⟨?_, fun request n h => Registry.serve_of_collision hr h, fun op n h => ?_,
    fun op v n h hn => not_contains_of_wanted hs h hn⟩
  · rintro t (ht | rfl)
    · exact leastNames_of_indexed (ht ▸ hr)
    · exact leastNames_of_indexed hs.indexed
  · obtain ⟨hn, htaken⟩ := collides_perform hs.indexed op n h
    exact ⟨hn, hs.indexed.exists_get?_of_contains htaken, session_perform_of_error hs.indexed h⟩

/-- After `P1` and `P3` comes `P2`, and a point that is renamed to its own name collides with
itself. -/
theorem leastNames_of_gap :
    let figure : Figure Float := .dot ⟨0, 0⟩ "#000"
    let r := ((Registry.empty : Registry Float).serveAll
      [.insert "P1" figure, .insert "P3" figure]).2
    let s := (new .standard).after [.point (.position (⟨0, 0⟩ : Coord Float)) (some "A")]
    r.freshName "P" = "P2" ∧
      (r.serve (.rename "P1" "P3")).1 = .change (.error (.nameCollision "P3")) ∧
      (∃ figure, r.get? "P3" = some figure) ∧ (r.serve (.rename "P1" "P3")).2 = r ∧
      (s.perform (.rename "A" "A")).1 = .error (.nameCollision "A") ∧
      (∃ figure, s.registry.get? "A" = some figure) ∧ (s.perform (.rename "A" "A")).2 = s := by
  intro figure r s
  obtain ⟨hleast, hregistry, hsession, -⟩ := leastNames_and_collisions_taken
    [.insert "P1" figure, .insert "P3" figure] .standard
    [.point (.position (⟨0, 0⟩ : Coord Float)) (some "A")]
  have hr := (Registry.serveAll_represents Registry.represents_empty
    [.insert "P1" figure, .insert "P3" figure]).2
  -- two is the first number that is not taken
  have hcontains (name : String) : r.contains name = ["P1", "P3"].contains name := by
    rw [hr.indexed.contains_eq, hr.toList_eq]
    rfl
  obtain ⟨k, hk, hname⟩ := (hleast { new .standard with registry := r } (.inl rfl)).freshName "P"
  have hk2 : k ≤ 2 := hk.isLeast.2 ⟨by decide, by rw [hcontains]; decide⟩
  have hk1 : k ≠ 1 := by
    rintro rfl
    have hfree := hk.isLeast.1.2
    rw [hcontains] at hfree
    cases hfree
  obtain rfl : k = 2 := by
    have := hk.isLeast.1.1
    omega
  have hrename : (r.serve (.rename "P1" "P3")).1 = .change (.error (.nameCollision "P3")) := by
    rw [(Registry.serve_represents hr _).1]
    rfl
  -- the point has been made, so its name is not free
  have hcollision : (s.perform (.rename "A" "A")).1 = .error (.nameCollision "A") := by
    have hs : s.Reachable := (Reachable.new .standard).after _
    obtain ⟨-, hlist⟩ := after_new_of_draws .standard (.cons (Operation.draws_point
      (p := (⟨0, 0⟩ : Coord Float)) (by decide +kernel) "A") .nil) (by decide) (by decide)
    have htaken : s.registry.contains "A" = true := by
      rw [hs.indexed.contains_eq, hlist]
      rfl
    exact perform_rename_of_contains "A" htaken (by decide)
  exact ⟨hname, hrename, (hregistry _ _ hrename).1, (hregistry _ _ hrename).2, hcollision,
    (hsession _ _ hcollision).2.1, (hsession _ _ hcollision).2.2⟩

end Session

end Straightedge
