import Straightedge.Proofs.Plane.Courses
import Straightedge.Proofs.Session.InfiniteLines
import Straightedge.Proofs.Session.Motions
import Straightedge.Proofs.Session.Outlines

/-! # Forms of an argument

An infinite line goes on through a second point, along a direction, or along a curve; a circle is as
large as a point is far, as a segment is long, or as a number says. Forms that say the same lead to
one figure, or to none: each is resolved on its own, and then they meet in one chord, or in one
radius.

* **`Session.gives_of_plan`**: an operation that is planned to add one figure gives it.
* **`Session.infiniteLine_agrees_or_coincident`**: through a point, and along the difference.
* **`Session.perform_circle_congr`**: circles of the same radius.
* **`Session.Reachable.argument_forms_agree`**: all forms lead to the same figure. -/

namespace Straightedge.Session

variable {α : Type} [Scalar α] [Numeral α] {s : Session α} {op : Operation α}
  {first second second' : Reference α} {n : String} {p q : Coord α} {m : Marker α}
  {course course' : Line.Course α} {curve : Curve α} {rest : List (Coord α)}

/-! ## What names denote -/

/-- The name of a point denotes its position. -/
theorem position_of_find (h : s.registry.find n = .ok (.point m)) :
    s.registry.position (.name n) = .ok m.coord := by
  rw [Registry.position, h]
  rfl

/-- A line goes on through a point by its name. -/
theorem course_of_find_point (h : s.registry.find n = .ok (.point m)) :
    s.course (.name n) = .ok (.through m.coord) := by
  rw [course, h]
  rfl

/-- A line goes on along the first two vertices of a curve by its name. -/
theorem course_of_find_curve (h : s.registry.find n = .ok (.curve curve))
    (hvertices : curve.vertices = p :: q :: rest) : s.course (.name n) = .ok (.along (q - p)) := by
  rw [course, h]
  show Except.ok (Line.Course.along (curve.endpoints.2 - curve.endpoints.1)) = _
  rw [Curve.endpoints, hvertices]

/-- **An operation that is planned to add one figure under its name gives it.** -/
theorem gives_of_plan (hs : s.registry.Indexed) {figure : Figure α} {wanted : Option String}
    {stem : String} (hname : s.nameFor wanted stem = .ok n)
    (hplan : op.plan s = .ok (.addOne n figure)) : s.Gives op figure := by
  obtain ⟨r, hinsert, hperform⟩ := exists_perform_addOne hplan (requireFree_of_nameFor hs hname)
  refine ⟨n, ?_, ?_⟩
  · rw [hperform]
  · rw [hperform]
    exact hs.find_insert hinsert

/-! ## Infinite lines -/

/-- Infinite lines with the same chord are drawn alike. -/
theorem perform_infiniteLine_congr (hp : s.registry.position first = .ok p)
    (hcourse : s.course second = .ok course) (hcourse' : s.course second' = .ok course')
    (hchord : Line.chord s.settings.tolerance s.currentWindow p course' =
      Line.chord s.settings.tolerance s.currentWindow p course) (name : Option String) :
    s.perform (.infiniteLine first second' name) = s.perform (.infiniteLine first second name) := by
  rw [perform_eq, perform_eq, plan_infiniteLine hp hcourse', plan_infiniteLine hp hcourse, hchord]

/-- An infinite line that is drawn has two vertices. -/
theorem exists_gives_of_infiniteLine (hs : s.registry.Indexed) {v : Value α} {name : Option String}
    (hok : (s.perform (.infiniteLine first second name)).1 = .ok v) :
    ∃ curve a b, s.Gives (.infiniteLine first second name) (.curve curve) ∧
      curve.vertices = [a, b] := by
  cases hplan : Operation.plan s (.infiniteLine first second name) with
  | error e =>
    rw [perform_of_error hplan] at hok
    cases hok
  | ok plan =>
    have hsteps := hplan
    simp only [Operation.plan, infiniteLine, bind_eq_ok_iff, pure_eq_ok_iff] at hsteps
    obtain ⟨p, -, course, -, ⟨a, b⟩, -, n, hname, curve, hcurve, rfl⟩ := hsteps
    obtain ⟨-, rfl⟩ := Curve.polyline_eq_ok_iff.1 hcurve
    exact ⟨_, a, b, gives_of_plan hs hname hplan, rfl⟩

/-- **Through a point, and along the difference, a line is drawn alike**, or the difference is
negligible and both are refused. -/
theorem infiniteLine_agrees_or_coincident
    (hcomm : ∀ x y : α, Scalar.abs (x - y) = Scalar.abs (y - x))
    (hp : s.registry.position first = .ok p) (hcourse : s.course second = .ok (.through q))
    (hcourse' : s.course second' = .ok (.along (q - p))) (name : Option String) :
    let through := s.perform (.infiniteLine first second name)
    let along := s.perform (.infiniteLine first second' name)
    through = along ∨ through.1 = .error (.degenerateLine .coincidentPoints) ∧
      along.1 = .error (.degenerateLine .zeroDirection) := by
  intro through along
  rcases Line.chord_through hcomm s.settings.tolerance s.currentWindow p q with
    hchord | ⟨hthrough, halong⟩
  · exact .inl (perform_infiniteLine_congr hp hcourse' hcourse hchord name)
  · exact .inr ⟨perform_infiniteLine_of_error hp hcourse hthrough,
      perform_infiniteLine_of_error hp hcourse' halong⟩

/-! ## Circles -/

/-- **Circles of the same radius are drawn alike.** -/
theorem perform_circle_congr {size size' : CircleSize α} {radius : α}
    (hp : s.registry.position first = .ok p) (hsize : s.circleRadius p size = .ok radius)
    (hsize' : s.circleRadius p size' = .ok radius) (name : Option String) :
    s.perform (.circle first size' name) = s.perform (.circle first size name) := by
  rw [perform_eq, perform_eq, Operation.plan, Operation.plan, circle, circle, hp]
  simp only [bind, Except.bind, hsize, hsize']

/-- The radius up to a point is its distance. -/
theorem circleRadius_through (hq : s.registry.position second = .ok q) :
    s.circleRadius p (.through second) = .ok (distance p q) := by
  rw [circleRadius, hq]
  rfl

/-- The radius along a segment is the distance of its ends. -/
theorem circleRadius_segment (h : s.registry.find n = .ok (.curve curve))
    (hvertices : curve.vertices = p :: q :: rest) :
    s.circleRadius p (.segment n) = .ok (distance p q) := by
  rw [circleRadius, Registry.curve, h]
  show Except.ok (distance curve.endpoints.1 curve.endpoints.2) = _
  rw [Curve.endpoints, hvertices]

/-- A circle that is drawn is the ring of the samples around its center. -/
theorem exists_gives_of_circle (hs : s.registry.Indexed) {v : Value α} {size : CircleSize α}
    {radius : α} {name : Option String} (hp : s.registry.position first = .ok p)
    (hsize : s.circleRadius p size = .ok radius)
    (hok : (s.perform (.circle first size name)).1 = .ok v) :
    ∃ curve, s.Gives (.circle first size name) (.curve curve) ∧
      curve.IsRing s.settings.tolerance
        (Sampling.circle p radius s.settings.curveSegments) := by
  obtain ⟨o, curve, hoval, -, hgives, hring⟩ := exists_oval_of_perform hs rfl hok
  refine ⟨curve, hgives, ?_⟩
  cases hoval with
  | circle _ hcenter hradius =>
    cases hp.symm.trans hcenter
    cases hsize.symm.trans hradius
    exact hring

/-! ## All forms -/

omit [Scalar α] [Numeral α] in
/-- What three things have in common. -/
theorem forall_mem_three {β : Type} {P : β → Prop} {x y z : β} (hx : P x) (hy : P y) (hz : P z) :
    ∀ a ∈ [x, y, z], P a :=
  List.forall_mem_cons.2 ⟨hx, List.forall_mem_cons.2 ⟨hy, List.forall_mem_singleton.2 hz⟩⟩

/-- Operations with the same outcome all fail alike, or all give one figure. -/
theorem error_or_gives_of_agree {ops : List (Operation α)} {P : Curve α → Prop}
    (hagree : ∀ op' ∈ ops, s.perform op' = s.perform op)
    (hgives : ∀ v, (s.perform op).1 = .ok v → ∃ curve, s.Gives op (.curve curve) ∧ P curve) :
    (∃ e, ∀ op' ∈ ops, (s.perform op').1 = .error e) ∨
      ∃ curve, P curve ∧ ∀ op' ∈ ops, s.Gives op' (.curve curve) := by
  cases hfound : (s.perform op).1 with
  | error e => exact .inl ⟨e, fun op' hmem => by rw [hagree op' hmem, hfound]⟩
  | ok v =>
    obtain ⟨curve, hcurve, hP⟩ := hgives v hfound
    refine .inr ⟨curve, hP, fun op' hmem => ?_⟩
    rw [Gives, hagree op' hmem]
    exact hcurve

/-- **All forms of an argument lead to the same figure.** In every session that operations lead to,
let two points be the first two vertices of a curve. An infinite line through the first point and
the second one, along their difference, and along the curve is refused in all three forms, or drawn
with the same two vertices in all of them; the outcomes are the same, but for the error if the
points are one. A circle around the first point that is given by the second one, by the curve, or by
the distance of the points has the same outcome in all three forms: the same error, or the same
curve. -/
theorem Reachable.argument_forms_agree {s : Session Float} (hs : s.Reachable)
    {center other base : String} {p q : Marker Float} {curve : Curve Float}
    {rest : List (Coord Float)} (hp : s.registry.find center = .ok (.point p))
    (hq : s.registry.find other = .ok (.point q))
    (hcurve : s.registry.find base = .ok (.curve curve))
    (hvertices : curve.vertices = p.coord :: q.coord :: rest) (name : Option String) :
    let line ref := Operation.infiniteLine (.name center) ref name
    let through := line (.name other)
    let along := line (.direction (q.coord - p.coord))
    let lines := [through, along, line (.name base)]
    let circle size := Operation.circle (.name center) size name
    let radius := distance p.coord q.coord
    let circles :=
      [circle (.through (.name other)), circle (.segment base), circle (.radius radius)]
    ((∀ op ∈ lines, ∃ e, (s.perform op).1 = .error e) ∨
        ∃ drawn : Curve Float, (∃ a b, drawn.vertices = [a, b]) ∧
          ∀ op ∈ lines, s.Gives op (.curve drawn)) ∧
      s.perform (line (.name base)) = s.perform along ∧
      (s.perform through = s.perform along ∨
        (s.perform through).1 = .error (.degenerateLine .coincidentPoints) ∧
          (s.perform along).1 = .error (.degenerateLine .zeroDirection)) ∧
      ((∃ e, ∀ op ∈ circles, (s.perform op).1 = .error e) ∨
        ∃ drawn : Curve Float, drawn.IsRing s.settings.tolerance
            (Sampling.circle p.coord radius s.settings.curveSegments) ∧
          ∀ op ∈ circles, s.Gives op (.curve drawn)) ∧
      ∀ op ∈ circles, ∀ op' ∈ circles, s.perform op = s.perform op' := by
  intro line through along lines circle radius circles
  have hcenter := position_of_find hp
  have hbase : s.perform (line (.name base)) = s.perform along :=
    perform_infiniteLine_congr hcenter rfl (course_of_find_curve hcurve hvertices) rfl name
  have hlines := infiniteLine_agrees_or_coincident Binary64.abs_sub_comm hcenter
    (course_of_find_point hq) (rfl : s.course (.direction (q.coord - p.coord)) = _) name
  -- the number is what the other two sizes come down to
  have hradius : s.circleRadius p.coord (.radius radius) = .ok radius := rfl
  have hcircles : ∀ op ∈ circles, s.perform op = s.perform (circle (.radius radius)) :=
    forall_mem_three
      (perform_circle_congr hcenter hradius (circleRadius_through (position_of_find hq)) name)
      (perform_circle_congr hcenter hradius (circleRadius_segment hcurve hvertices) name) rfl
  refine ⟨?_, hbase, hlines, ?_, fun op hop op' hop' => (hcircles op hop).trans
    (hcircles op' hop').symm⟩
  · rcases hlines with hthrough | ⟨hthrough, halong⟩
    · have hagree : ∀ op ∈ lines, s.perform op = s.perform along :=
        forall_mem_three hthrough rfl hbase
      refine (error_or_gives_of_agree hagree fun v hv => ?_).imp_left fun ⟨e, he⟩ op hop =>
        ⟨e, he op hop⟩
      obtain ⟨drawn, a, b, hgives, hdrawn⟩ := exists_gives_of_infiniteLine hs.indexed hv
      exact ⟨drawn, hgives, a, b, hdrawn⟩
    · exact .inl (forall_mem_three ⟨_, hthrough⟩ ⟨_, halong⟩ ⟨_, hbase ▸ halong⟩)
  · exact error_or_gives_of_agree hcircles fun v hv =>
      exists_gives_of_circle hs.indexed hcenter hradius hv

/-! ## Two points and a line -/

/-- A new session with two points at finite positions and the line between them. -/
theorem after_points_and_line (settings : Settings α) (hp : p.isFinite = true)
    (hq : q.isFinite = true) :
    let s := (new settings).after [.point (.position p) (some "A"), .point (.position q) (some "B"),
      .line (.position p) (.position q) (some "l")]
    s.currentWindow = (new settings : Session α).currentWindow ∧
      s.registry.find "A" = .ok (.dot p "red") ∧ s.registry.find "B" = .ok (.dot q "red") ∧
      ∃ curve : Curve α, s.registry.find "l" = .ok (.curve curve) ∧ curve.vertices = [p, q] := by
  intro s
  obtain ⟨hsession, hlist⟩ := after_new_of_draws settings (.cons (Operation.draws_point hp "A")
    (.cons (Operation.draws_point hq "B") (.cons (Operation.draws_line hp hq "l") .nil)))
    (by simp) (by simp)
  have hr : s.registry.Indexed := ((Reachable.new settings).after _).indexed
  refine ⟨(congrArg currentWindow hsession).trans rfl, hr.find_of_mem_toList ?_,
    hr.find_of_mem_toList ?_,
    ⟨[p, q], false, .solid "#000", none, some (endsTooltip "l" p q)⟩,
    hr.find_of_mem_toList ?_, rfl⟩
  all_goals
    rw [hlist]
    simp

/-- An infinite line through two points is drawn alike in all three forms. -/
theorem argument_forms_agree_of_two_points :
    let p : Coord Float := ⟨0, 0⟩
    let q : Coord Float := ⟨3, 4⟩
    let s : Session Float := (new .standard).after [.point (.position p) (some "A"),
      .point (.position q) (some "B"), .line (.position p) (.position q) (some "l")]
    s.Reachable ∧ s.registry.find "A" = .ok (.dot p "red") ∧
      s.registry.find "B" = .ok (.dot q "red") ∧
      (∃ curve : Curve Float, s.registry.find "l" = .ok (.curve curve) ∧
        curve.vertices = [p, q]) ∧
      ∃ drawn : Curve Float, ∀ ref ∈ [.name "B", .direction (q - p), .name "l"],
        s.Gives (.infiniteLine (.name "A") ref none) (.curve drawn) := by
  intro p q s
  let line (ref : Reference Float) : Operation Float := .infiniteLine (.name "A") ref none
  obtain ⟨hwindow, hA, hB, curve, hl, hvertices⟩ := after_points_and_line
    (.standard : Settings Float) (p := p) (q := q) (by decide +kernel) (by decide +kernel)
  have hs : s.Reachable := (Reachable.new .standard).after _
  refine ⟨hs, hA, hB, ⟨curve, hl, hvertices⟩, ?_⟩
  obtain ⟨hlines, -⟩ := Reachable.argument_forms_agree hs hA hB hl hvertices none
  rcases hlines with hrefused | ⟨drawn, -, hgives⟩
  · obtain ⟨e, he⟩ := hrefused _ (List.mem_cons_of_mem _ List.mem_cons_self)
    -- the chord is there and has finite ends
    have hchord : (Line.chord .standard (new .standard : Session Float).currentWindow p
        (.along (q - p))).toOption.any (fun ends => ends.1.isFinite && ends.2.isFinite) = true := by
      decide +kernel
    obtain ⟨⟨a, b⟩, hab, hfinite⟩ := any_toOption_iff.1 hchord
    obtain ⟨ha, hb⟩ := Bool.and_eq_true_iff.1 hfinite
    rw [← hwindow, ← show s.settings.tolerance = .standard from
      congrArg Settings.tolerance (settings_after _ _)] at hab
    rw [perform_infiniteLine_of_ok hs.indexed (position_of_find hA) rfl hab ha hb] at he
    cases he
  · exact ⟨drawn, fun ref href => hgives _ (List.mem_map_of_mem (f := line) href)⟩

end Straightedge.Session
