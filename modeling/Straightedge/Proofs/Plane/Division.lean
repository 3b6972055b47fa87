import Straightedge.Proofs.Plane.Exact
import Straightedge.Binary64
import Straightedge.Plane.Line
import Straightedge.Plane.Ring
import Straightedge.Proofs.Session.Reachable

/-! # Division by zero

The constructions that divide first compare what they divide by, or something close to it, with a
tolerance. Here they are written once more with the division as a parameter, so that one and the
same text can be run with the division of the scalars and with one that faults on zero. In exact
arithmetic nothing faults exactly if all tolerances are above zero.

* **`Division`**: a way to take quotients; **`Division.checked`** faults on zero.
* **`Line.intersectionBy`**, **`Line.footBy`**, **`Line.circumcenterBy`**, **`Line.chordBy`**,
  **`Ring.centroidBy?`**: the constructions with any division; with `Division.total` they are those
  of scripts.
* **`Tolerance.RunsBy`**: no input makes a construction fault.
* **`Tolerance.RefusesDegenerate`**: degenerate input is an error, or has a mean.
* **`Session.runsBy_checked_iff`**: when this is so, whatever `validate` says. -/

namespace Straightedge

variable {α : Type}

/-- A way to take quotients; `none` is a fault. -/
abbrev Division (α : Type) : Type := α → α → Option α

variable [Scalar α]

namespace Division

/-- The division of the scalars, which never faults. -/
def total : Division α := fun x y => some (x / y)

/-- **The division that faults on zero.** -/
def checked : Division α := fun x y => if Scalar.eq y Scalar.zero then none else some (x / y)

end Division

/-! ## The constructions with any division -/

namespace Line

/-- The common point of two lines. -/
def intersectionBy (div : Division α) (tol : Tolerance α) (a b c d : Coord α) :
    Option (Except ConstructionError (Coord α)) :=
  let u := b - a
  let v := d - c
  if tol.tiny u.norm || tol.tiny v.norm then some (.error (.degenerateLine .zeroLength))
  else
    (div (u.cross v) (u.norm * v.norm)).bind fun sine =>
      if Scalar.lt (Scalar.abs sine) tol.parallel then some (.error .parallelLines)
      else (div ((c - a).cross v) (u.cross v)).map fun t => .ok (a + u.scale t)

/-- The foot of a perpendicular. -/
def footBy (div : Division α) (tol : Tolerance α) (p a b : Coord α) :
    Option (Except ConstructionError (Coord α)) :=
  let u := b - a
  if tol.tiny u.norm then some (.error (.degenerateLine .zeroBase))
  else (div ((p - a).dot u) u.normSquared).map fun t => .ok (a + u.scale t)

/-- The center of the circle through three positions. -/
def circumcenterBy (div : Division α) (tol : Tolerance α) (a b c : Coord α) :
    Option (Except ConstructionError (Coord α)) :=
  let first := midpoint a b
  let second := midpoint b c
  intersectionBy div tol first (first + (b - a).turnLeft) second (second + (c - b).turnLeft)

/-- Where a line meets the sides of a window; the slope divides only if the line is steep. -/
def crossingsBy (div : Division α) (tol : Tolerance α) (w : Window α) (slope offset : α) :
    Option (List (Coord α)) :=
  let left := slope * w.minX + offset
  let right := slope * w.maxX + offset
  let level := (if w.spansY left then [⟨w.minX, left⟩] else [])
    ++ (if w.spansY right then [⟨w.maxX, right⟩] else [])
  if Scalar.lt tol.coincidence (Scalar.abs slope) then
    (div (w.minY - offset) slope).bind fun lower =>
      (div (w.maxY - offset) slope).map fun upper =>
        level ++ (if w.spansX lower then [⟨lower, w.minY⟩] else [])
          ++ (if w.spansX upper then [⟨upper, w.maxY⟩] else [])
  else some level

/-- The chord of a line in a window. -/
def chordBy (div : Division α) (tol : Tolerance α) (w : Window α) (p : Coord α)
    (course : Course α) : Option (Except ConstructionError (Coord α × Coord α)) :=
  match course.direction tol p with
  | .error e => some (.error e)
  | .ok v =>
    if tol.negligible v.x then
      if w.spansX p.x then some (.ok (⟨p.x, w.minY⟩, ⟨p.x, w.maxY⟩))
      else some (.error (.degenerateLine .missesWindow))
    else
      (div v.y v.x).bind fun slope =>
        (crossingsBy div tol w slope (p.y - slope * p.x)).map fun found =>
          match distinct tol found with
          | first :: second :: rest =>
            .ok (leftmost first (second :: rest), rightmost first (second :: rest))
          | _ => .error (.degenerateLine .missesWindow)

end Line

/-- The center of gravity of a ring. -/
def Ring.centroidBy? (div : Division α) (tol : Tolerance α) (vertices : List (Coord α)) :
    Option (Option (Coord α)) :=
  match openRing tol vertices with
  | [] => some none
  | ring =>
    let es := edges ring
    let area := sumEdges Coord.cross es / Scalar.ofNat 2
    if Scalar.lt (Scalar.abs area) tol.area then some (mean? ring)
    else
      (div (sumEdges (fun p q => (p.x + q.x) * p.cross q) es) (Scalar.ofNat 6 * area)).bind fun x =>
        (div (sumEdges (fun p q => (p.y + q.y) * p.cross q) es) (Scalar.ofNat 6 * area)).map fun y =>
          some ⟨x, y⟩

/-! ## Divisions that agree where it matters -/

/-- A division gives the quotient that the scalars have. -/
def Division.Gives (div : Division α) (x y : α) : Prop := div x y = some (x / y)

namespace Line

variable {div : Division α} {tol : Tolerance α}

/-- Lines are intersected by two quotients: the sine of their angle, unless one of them has no
length, and the place on the first line, unless they are parallel. -/
theorem intersectionBy_eq {a b c d : Coord α}
    (hsine : tol.tiny (b - a).norm = false → tol.tiny (d - c).norm = false →
      div.Gives ((b - a).cross (d - c)) ((b - a).norm * (d - c).norm))
    (hplace : Scalar.lt (Scalar.abs ((b - a).cross (d - c) / ((b - a).norm * (d - c).norm)))
        tol.parallel = false →
      div.Gives ((c - a).cross (d - c)) ((b - a).cross (d - c))) :
    intersectionBy div tol a b c d = some (intersection tol a b c d) := by
  simp only [intersectionBy, intersection]
  cases hfirst : tol.tiny (b - a).norm with
  | true => simp
  | false =>
    cases hsecond : tol.tiny (d - c).norm with
    | true => simp
    | false =>
      rw [hsine hfirst hsecond]
      simp only [Bool.or_self, Bool.false_eq_true, if_false, Option.bind_some]
      cases hparallel : Scalar.lt (Scalar.abs ((b - a).cross (d - c) /
          ((b - a).norm * (d - c).norm))) tol.parallel with
      | true => simp
      | false =>
        rw [hplace hparallel]
        simp

/-- A foot takes one quotient, unless the line has no length. -/
theorem footBy_eq {p a b : Coord α}
    (hplace : tol.tiny (b - a).norm = false →
      div.Gives ((p - a).dot (b - a)) (b - a).normSquared) :
    footBy div tol p a b = some (foot tol p a b) := by
  simp only [footBy, foot]
  cases hbase : tol.tiny (b - a).norm with
  | true => simp
  | false =>
    rw [hplace hbase]
    simp

/-- The slope divides twice, if the line is steep. -/
theorem crossingsBy_eq {w : Window α} {slope offset : α}
    (hsteep : Scalar.lt tol.coincidence (Scalar.abs slope) = true →
      ∀ x, div.Gives x slope) :
    crossingsBy div tol w slope offset = some (crossings tol w slope offset) := by
  simp only [crossingsBy, crossings]
  cases hlt : Scalar.lt tol.coincidence (Scalar.abs slope) with
  | true =>
    rw [hsteep hlt, hsteep hlt]
    simp
  | false => simp

/-- A chord needs a slope, unless it is upright. -/
theorem chordBy_eq {w : Window α} {p : Coord α} {course : Course α}
    (hslope : ∀ v, course.direction tol p = .ok v → tol.negligible v.x = false →
      div.Gives v.y v.x ∧
        (Scalar.lt tol.coincidence (Scalar.abs (v.y / v.x)) = true →
          ∀ x, div.Gives x (v.y / v.x))) :
    chordBy div tol w p course = some (chord tol w p course) := by
  simp only [chordBy, chord]
  cases hdirection : course.direction tol p with
  | error e => rfl
  | ok v =>
    simp only [bind, Except.bind]
    cases hupright : tol.negligible v.x with
    | true =>
      simp only [if_true]
      split <;> rfl
    | false =>
      obtain ⟨hgives, hsteep⟩ := hslope v hdirection hupright
      rw [hgives]
      simp only [Bool.false_eq_true, if_false, Option.bind_some, crossingsBy_eq hsteep,
        Option.map_some, Option.some.injEq]
      -- two distinct positions or fewer
      rcases distinct tol (crossings tol w (v.y / v.x) (p.y - v.y / v.x * p.x)) with
        _ | ⟨first, _ | ⟨second, rest⟩⟩ <;> rfl

end Line

/-- A center of gravity takes two quotients by six times the area, unless the area is negligible. -/
theorem Ring.centroidBy?_eq {div : Division α} {tol : Tolerance α} {vertices : List (Coord α)}
    (harea : ∀ area, Scalar.lt (Scalar.abs area) tol.area = false →
      ∀ x, div.Gives x (Scalar.ofNat 6 * area)) :
    centroidBy? div tol vertices = some (centroid? tol vertices) := by
  unfold centroidBy? centroid?
  cases hring : openRing tol vertices with
  | nil => rfl
  | cons p ps =>
    dsimp only
    cases hlt : Scalar.lt (Scalar.abs (sumEdges Coord.cross (edges (p :: ps)) / Scalar.ofNat 2))
        tol.area with
    | true => simp
    | false =>
      rw [harea _ hlt, harea _ hlt]
      simp

/-! ## Runs without a fault -/

/-- **Run with a division, every construction gives what it gives otherwise**, whatever its
arguments: none of its quotients is a fault. -/
structure Tolerance.RunsBy (tol : Tolerance α) (div : Division α) : Prop where
  intersection : ∀ a b c d,
    Line.intersectionBy div tol a b c d = some (Line.intersection tol a b c d)
  foot : ∀ p a b, Line.footBy div tol p a b = some (Line.foot tol p a b)
  circumcenter : ∀ a b c, Line.circumcenterBy div tol a b c = some (Line.circumcenter tol a b c)
  chord : ∀ w p course, Line.chordBy div tol w p course = some (Line.chord tol w p course)
  centroid : ∀ vertices, Ring.centroidBy? div tol vertices = some (Ring.centroid? tol vertices)

/-- **The constructions are the same text**: with the division of the scalars they are those of
scripts. -/
theorem Tolerance.runsBy_total (tol : Tolerance α) : tol.RunsBy .total where
  intersection _ _ _ _ := Line.intersectionBy_eq (fun _ _ => rfl) fun _ => rfl
  foot _ _ _ := Line.footBy_eq fun _ => rfl
  circumcenter _ _ _ := Line.intersectionBy_eq (fun _ _ => rfl) fun _ => rfl
  chord _ _ _ := Line.chordBy_eq fun _ _ _ => ⟨rfl, fun _ _ => rfl⟩
  centroid _ := Ring.centroidBy?_eq fun _ _ _ => rfl

/-! ## Exact arithmetic -/

/-- **All tolerances are above zero.** -/
structure Tolerance.Positive (tol : Tolerance ℝ) : Prop where
  parallel : 0 < tol.parallel
  coincidence : 0 < tol.coincidence
  area : 0 < tol.area

/-- **Degenerate input is an error, or has a mean**: lines in one direction, or of no length, have
no common point; no line goes through one position only, and none along no direction; positions in
line have no circle; a ring without area has the mean of its vertices. -/
structure Tolerance.RefusesDegenerate (tol : Tolerance ℝ) : Prop where
  intersection : ∀ a b c d : Coord ℝ, (b - a).cross (d - c) = 0 →
    ∃ e, Line.intersection tol a b c d = .error e
  foot : ∀ p a, Line.foot tol p a a = .error (.degenerateLine .zeroBase)
  circumcenter : ∀ a b c : Coord ℝ, (b - a).cross (c - b) = 0 →
    ∃ e, Line.circumcenter tol a b c = .error e
  through : ∀ w p, Line.chord tol w p (.through p) = .error (.degenerateLine .coincidentPoints)
  along : ∀ w p, Line.chord tol w p (.along .origin) = .error (.degenerateLine .zeroDirection)
  centroid : ∀ vertices, Ring.signedArea tol vertices = 0 →
    Ring.centroid? tol vertices = Ring.mean? (Ring.openRing tol vertices)

namespace Division

/-- What is not zero divides. -/
theorem gives_of_ne_zero {x y : ℝ} (hy : y ≠ 0) : (checked : Division ℝ).Gives x y := by
  have heq : Scalar.eq y (Scalar.zero : ℝ) = false := by
    rw [← Bool.not_eq_true, Exact.eq_iff, Exact.zero_eq]
    exact hy
  rw [Gives, checked, heq]
  rfl

/-- Zero does not. -/
theorem checked_zero (x : ℝ) : checked x 0 = none := by
  have heq : Scalar.eq (0 : ℝ) Scalar.zero = true := by rw [Exact.eq_iff, Exact.zero_eq]
  rw [checked, heq]
  rfl

end Division

namespace Tolerance

variable {tol : Tolerance ℝ}

/-- A length that is not tiny is above zero. -/
theorem pos_of_not_tiny (hcoincidence : 0 < tol.coincidence) {length : ℝ}
    (h : tol.tiny length = false) : 0 < length :=
  hcoincidence.trans_le (Exact.lt_eq_false_iff.1 h)

/-- A size that is not below a threshold above zero is not zero. -/
theorem ne_zero_of_not_lt {threshold x : ℝ} (hthreshold : 0 < threshold)
    (h : Scalar.lt (Scalar.abs x) threshold = false) : x ≠ 0 :=
  abs_pos.1 (hthreshold.trans_le (Exact.lt_eq_false_iff.1 h))

/-- With positive tolerances no quotient of an intersection is a fault. -/
theorem Positive.intersectionBy_checked (h : tol.Positive) (a b c d : Coord ℝ) :
    Line.intersectionBy .checked tol a b c d = some (Line.intersection tol a b c d) := by
  refine Line.intersectionBy_eq (fun hfirst hsecond => ?_) fun hparallel => ?_
  · have hu := pos_of_not_tiny h.coincidence hfirst
    have hv := pos_of_not_tiny h.coincidence hsecond
    exact Division.gives_of_ne_zero (mul_pos hu hv).ne'
  · -- were the area zero, so were the sine
    have hsine := ne_zero_of_not_lt h.parallel hparallel
    refine Division.gives_of_ne_zero fun harea => hsine ?_
    rw [harea]
    exact zero_div _

/-- **With positive tolerances nothing faults.** -/
theorem Positive.runsBy_checked (h : tol.Positive) : tol.RunsBy .checked where
  intersection := h.intersectionBy_checked
  foot p a b := by
    refine Line.footBy_eq fun hbase => Division.gives_of_ne_zero fun hzero => ?_
    have hnorm := pos_of_not_tiny h.coincidence hbase
    rw [Coord.norm, hzero, Exact.sqrt_eq, Real.sqrt_zero] at hnorm
    exact lt_irrefl 0 hnorm
  circumcenter a b c := h.intersectionBy_checked _ _ _ _
  chord w p course := by
    refine Line.chordBy_eq fun v _ hupright => ⟨?_, fun hsteep x => ?_⟩
    · exact Division.gives_of_ne_zero (ne_zero_of_not_lt h.coincidence hupright)
    · have hslope := h.coincidence.trans (Exact.lt_iff.1 hsteep)
      exact Division.gives_of_ne_zero (abs_pos.1 hslope)
  centroid vertices := by
    refine Ring.centroidBy?_eq fun area harea x => Division.gives_of_ne_zero ?_
    have hsix : ((6 : ℕ) : ℝ) ≠ 0 := by norm_num
    exact mul_ne_zero hsix (ne_zero_of_not_lt h.area harea)

/-! ## Degenerate input -/

/-- A position has no distance from itself. -/
theorem norm_sub_self (p : Coord ℝ) : (p - p).norm = 0 := by
  show √((p.x - p.x) * (p.x - p.x) + (p.y - p.y) * (p.y - p.y)) = 0
  simp

/-- Nothing is shorter than a tolerance above zero. -/
theorem tiny_zero_iff : tol.tiny 0 = true ↔ 0 < tol.coincidence := Exact.lt_iff

/-- Zero is negligible to a tolerance above zero. -/
theorem negligible_zero (h : 0 < tol.coincidence) : tol.negligible 0 = true := by
  rw [negligible, Exact.abs_eq, abs_zero, Exact.lt_iff]
  exact h

/-- **With positive tolerances lines in one direction have no common point.** -/
theorem Positive.exists_intersection_error (h : tol.Positive) {a b c d : Coord ℝ}
    (hcross : (b - a).cross (d - c) = 0) : ∃ e, Line.intersection tol a b c d = .error e := by
  simp only [Line.intersection]
  split
  · exact ⟨_, rfl⟩
  · have hparallel : Scalar.lt (Scalar.abs ((b - a).cross (d - c) /
        ((b - a).norm * (d - c).norm))) tol.parallel = true := by
      rw [hcross, Exact.lt_iff, Exact.abs_eq, zero_div, abs_zero]
      exact h.parallel
    rw [if_pos hparallel]
    exact ⟨_, rfl⟩

/-- The perpendicular bisectors of two chords in line have one direction. -/
theorem cross_bisectors (first second u v : Coord ℝ) :
    ((first + u.turnLeft) - first).cross ((second + v.turnLeft) - second) = u.cross v := by
  show (first.x + -u.y - first.x) * (second.y + v.x - second.y) -
    (first.y + u.x - first.y) * (second.x + -v.y - second.x) = u.x * v.y - u.y * v.x
  ring

/-- **With positive tolerances degenerate input is an error, or has a mean.** -/
theorem Positive.refusesDegenerate (h : tol.Positive) : tol.RefusesDegenerate where
  intersection _ _ _ _ hcross := h.exists_intersection_error hcross
  foot p a := by
    have htiny : tol.tiny (a - a).norm = true := by
      rw [norm_sub_self, tiny_zero_iff]
      exact h.coincidence
    rw [Line.foot, if_pos htiny]
  circumcenter a b c hcross := by
    refine h.exists_intersection_error ?_
    rw [cross_bisectors]
    exact hcross
  through w p := by
    have hsame : tol.same p p = true := by
      rw [same, sub_self p.x, sub_self p.y, negligible_zero h.coincidence]
      rfl
    rw [Line.chord, Line.Course.direction, if_pos hsame]
    rfl
  along w p := by
    have hzero : (tol.negligible (Coord.origin : Coord ℝ).x &&
        tol.negligible (Coord.origin : Coord ℝ).y) = true := by
      rw [Coord.origin, Exact.zero_eq, negligible_zero h.coincidence]
      rfl
    rw [Line.chord, Line.Course.direction, if_pos hzero]
    rfl
  centroid vertices harea := by
    unfold Ring.centroid?
    cases hring : Ring.openRing tol vertices with
    | nil => rfl
    | cons p ps =>
      rw [Ring.signedArea, hring] at harea
      have hlt : Scalar.lt (Scalar.abs (Ring.sumEdges Coord.cross (Ring.edges (p :: ps)) /
          Scalar.ofNat 2)) tol.area = true := by
        rw [harea, Exact.lt_iff, Exact.abs_eq, abs_zero]
        exact h.area
      exact if_pos hlt

/-! ## What tolerances of zero or less let through -/

/-- To a tolerance of zero or less a line of no length is a line, and its length divides. -/
theorem footBy_checked_self (h : tol.coincidence ≤ 0) (p : Coord ℝ) :
    Line.footBy .checked tol p p p = none := by
  have htiny : ¬tol.tiny (p - p).norm = true := by
    rw [norm_sub_self, tiny_zero_iff]
    exact not_lt.2 h
  have hsquare : (p - p).normSquared = 0 := by
    show (p.x - p.x) * (p.x - p.x) + (p.y - p.y) * (p.y - p.y) = 0
    ring
  rw [Line.footBy, if_neg htiny, hsquare, Division.checked_zero]
  rfl

/-- To a tolerance of zero or less lines in one direction meet, and the sine of their angle
divides. -/
theorem intersectionBy_checked_self (hcoincidence : 0 < tol.coincidence) (h : tol.parallel ≤ 0) :
    let o : Coord ℝ := ⟨0, 0⟩
    let e : Coord ℝ := ⟨tol.coincidence, 0⟩
    Line.intersectionBy .checked tol o e o e = none := by
  intro o e
  have hnorm : (e - o).norm = tol.coincidence := by
    show √((tol.coincidence - 0) * (tol.coincidence - 0) + (0 - 0) * (0 - 0)) = tol.coincidence
    rw [sub_zero, sub_zero, mul_zero, add_zero, Real.sqrt_mul_self hcoincidence.le]
  have harea : (e - o).cross (e - o) = 0 := by
    show (tol.coincidence - 0) * (0 - 0) - (0 - 0) * (tol.coincidence - 0) = 0
    ring
  have htiny : tol.tiny tol.coincidence = false := by
    rw [tiny, Exact.lt_eq_false_iff]
  have hsine : (.checked : Division ℝ).Gives 0 (tol.coincidence * tol.coincidence) :=
    Division.gives_of_ne_zero (mul_pos hcoincidence hcoincidence).ne'
  have hparallel : ¬Scalar.lt (Scalar.abs (0 / (tol.coincidence * tol.coincidence)))
      tol.parallel = true := by
    rw [Exact.lt_iff, Exact.abs_eq, zero_div, abs_zero]
    exact not_lt.2 h
  simp only [Line.intersectionBy, hnorm, htiny, harea, Bool.or_self, Bool.false_eq_true, if_false]
  rw [hsine, Option.bind_some, if_neg hparallel, Division.checked_zero]
  rfl

/-- To a tolerance of zero or less a ring of one vertex has an area, and it divides. -/
theorem centroidBy?_checked_singleton (h : tol.area ≤ 0) (p : Coord ℝ) :
    Ring.centroidBy? .checked tol [p] = none := by
  have harea : Ring.sumEdges Coord.cross (Ring.edges [p]) / (Scalar.ofNat 2 : ℝ) = 0 := by
    show (Scalar.zero + (p.x * p.y - p.y * p.x)) / (Scalar.ofNat 2 : ℝ) = 0
    rw [Exact.zero_eq, mul_comm p.x p.y, sub_self, add_zero, zero_div]
  have hlt : ¬Scalar.lt (Scalar.abs (0 : ℝ)) tol.area = true := by
    rw [Exact.lt_iff, Exact.abs_eq, abs_zero]
    exact not_lt.2 h
  have hopen : Ring.openRing tol [p] = [p] := rfl
  rw [Ring.centroidBy?, hopen]
  simp only [harea]
  rw [if_neg hlt, mul_zero, Division.checked_zero]
  rfl

/-- **Where nothing faults all tolerances are above zero.** -/
theorem RunsBy.positive (h : tol.RunsBy .checked) : tol.Positive := by
  have hcoincidence : 0 < tol.coincidence := by
    by_contra hle
    have hfoot := h.foot ⟨0, 0⟩ ⟨0, 0⟩ ⟨0, 0⟩
    rw [footBy_checked_self (not_lt.1 hle)] at hfoot
    cases hfoot
  have hparallel : 0 < tol.parallel := by
    by_contra hle
    have hmeet := h.intersection ⟨0, 0⟩ ⟨tol.coincidence, 0⟩ ⟨0, 0⟩ ⟨tol.coincidence, 0⟩
    rw [intersectionBy_checked_self hcoincidence (not_lt.1 hle)] at hmeet
    cases hmeet
  have harea : 0 < tol.area := by
    by_contra hle
    have hcenter := h.centroid [⟨0, 0⟩]
    rw [centroidBy?_checked_singleton (not_lt.1 hle)] at hcenter
    cases hcenter
  exact ⟨hparallel, hcoincidence, harea⟩

end Tolerance

/-! ## Accepted settings -/

namespace Session

/-- **Constructions divide by zero exactly if a tolerance is not above zero, which no check rules
out.** In exact arithmetic, in every session that operations lead to: whether its settings are
accepted does not depend on the tolerances; no positions, rings, lines or windows make a
construction divide by zero exactly if all tolerances are above zero; and then degenerate input is
an error, or has a mean. -/
theorem runsBy_checked_iff [Numeral ℝ] (settings : Settings ℝ) (ops : List (Operation ℝ)) :
    let tol := ((new settings).after ops).settings.tolerance
    (∀ other, { settings with tolerance := other }.validate = settings.validate) ∧
      tol.RunsBy .total ∧ (tol.RunsBy .checked ↔ tol.Positive) ∧
      (tol.Positive → tol.RefusesDegenerate) := by
  intro tol
  exact ⟨fun _ => rfl, tol.runsBy_total, ⟨fun h => h.positive, fun h => h.runsBy_checked⟩,
    fun h => h.refusesDegenerate⟩

/-- The standard tolerances are above zero, so with the standard settings nothing faults and
degenerate input is refused. -/
theorem runsBy_checked_of_standard :
    let _ : Numeral ℝ := Exact.decimals
    let tol := ((new .standard : Session ℝ).after []).settings.tolerance
    tol.RunsBy .checked ∧ tol.RefusesDegenerate := by
  intro _ tol
  have hbillionth : 0 < (Scalar.ofDecimal 1 (-9) : ℝ) := by
    rw [Exact.ofDecimal_eq]
    positivity
  have hpositive : tol.Positive := ⟨hbillionth, hbillionth, hbillionth⟩
  obtain ⟨-, -, hruns, hrefuses⟩ := runsBy_checked_iff (.standard : Settings ℝ) []
  exact ⟨hruns.2 hpositive, hrefuses hpositive⟩

/-- Settings with a coincidence tolerance of zero are accepted, and with them two lines of no length
meet: their lengths divide, and the common point is no finite position. -/
theorem intersection_faults_of_zero_coincidence :
    let tol : Tolerance Float := { (.standard : Tolerance Float) with coincidence := 0 }
    let settings : Settings Float := { (.standard : Settings Float) with tolerance := tol }
    let o : Coord Float := ⟨0, 0⟩
    settings.validate = .ok () ∧ Line.intersectionBy .checked tol o o o o = none ∧
      ∃ p, Line.intersection tol o o o o = .ok p ∧ p.isFinite = false := by
  intro tol settings o
  have haccepted : (settings.validate.toOption.any fun _ => true) = true := by decide +kernel
  have hfault : (Line.intersectionBy .checked tol o o o o).isNone = true := by decide +kernel
  have hpoint : ((Line.intersection tol o o o o).toOption.any fun p => !p.isFinite) = true := by
    decide +kernel
  obtain ⟨_, hvalidate, -⟩ := any_toOption_iff.1 haccepted
  obtain ⟨p, hmeet, hp⟩ := any_toOption_iff.1 hpoint
  exact ⟨hvalidate, Option.isNone_iff_eq_none.1 hfault, p, hmeet, by simpa using hp⟩

end Session

end Straightedge
