import Straightedge.Plane.Line
import Straightedge.Session.Basic

/-! # Lines

Plans for the operations that make an open curve.

* **`Session.line`**, **`Session.segment`**, **`Session.vector`**: between two points.
* **`Session.infiniteLine`**: a line clipped to the current window.
* **`Session.perpendicular`**, **`Session.parallel`**: lines built on a curve. -/

namespace Straightedge.Session

variable {α : Type} [Scalar α] [Numeral α]

/-- The tooltip of a line between two positions. -/
def endsTooltip (name : String) (a b : Coord α) : String :=
  Tooltip.write name ["Start: " ++ a.text, "End: " ++ b.text]

/-- A line between two points; named `Line1`, `Line2`, … by default. -/
def line (s : Session α) (first second : Reference α) (name : Option String) :
    Except ConstructionError (Plan α) := do
  let a ← s.registry.position first
  let b ← s.registry.position second
  let name ← s.nameFor name "Line"
  let curve ← Curve.polyline [a, b] (.solid "#000") (some (endsTooltip name a b))
  return .addOne name (.curve curve)

/-! ## Segments -/

/-- The end of a segment that starts at `a`: a point, or for a number the position that many units
to the right. -/
def segmentEnd (s : Session α) (a : Coord α) :
    Reference α → Except ConstructionError (Coord α)
  | .number length => do
    if !Scalar.isFinite length || Scalar.eq length Scalar.zero then
      throw (.invalidParameter (.segmentLength (Numeral.plain length)))
    let b := a + ⟨length, Scalar.zero⟩
    if !Scalar.isFinite b.x then
      throw (.invalidParameter (.segmentOverflow (Numeral.plain length)))
    return b
  | other => s.registry.position other

/-- A segment from a point to a point, or of a given length to the right of a point; named
`Segment1`, `Segment2`, … by default. A start given as a position and an end given by a length
become points of their own. -/
def segment (s : Session α) (start finish : Reference α) (name : Option String) :
    Except ConstructionError (Plan α) := do
  let a ← s.registry.position start
  let b ← s.segmentEnd a finish
  let name ← s.nameFor name "Segment"
  let curve ← Curve.polyline [a, b] (.solid "#F00") (some (endsTooltip name a b))
  let startPoint : List (Change α) :=
    if start.isPosition then [.add (s.registry.freshVariant ("P_start_" ++ name)) (.dot a "red")]
    else []
  let endPoint : List (Change α) :=
    if finish.number?.isSome then
      [.add (s.registry.freshVariant ("P_end_" ++ name)) (.dot b "blue")]
    else []
  return ⟨startPoint ++ .add name (.curve curve) :: endPoint, .name name⟩

/-! ## Infinite lines and vectors -/

/-- How a line goes on: through a point or a position, along a direction, or along the first two
vertices of a curve. -/
def course (s : Session α) : Reference α → Except ConstructionError (Line.Course α)
  | .name n => do
    match ← s.registry.find n with
    | .point m => return .through m.coord
    | .curve c => return .along (c.endpoints.2 - c.endpoints.1)
    | .label _ =>
      throw (.invalidReference (Reference.text (α := α) (.name n)) .pointCurveOrDirection)
  | .position q => return .through q
  | .direction v => return .along v
  | .number x => throw (.invalidReference (Reference.text (.number x)) .pointCurveOrDirection)

/-- The chord of an infinite line in the current window; named `InfLine1`, `InfLine2`, … by
default. -/
def infiniteLine (s : Session α) (first second : Reference α) (name : Option String) :
    Except ConstructionError (Plan α) := do
  let p ← s.registry.position first
  let course ← s.course second
  let (a, b) ← Line.chord s.settings.tolerance s.currentWindow p course
  let name ← s.nameFor name "InfLine"
  let tip := Tooltip.write name ["Crossing 1: " ++ a.text, "Crossing 2: " ++ b.text]
  let curve ← Curve.polyline [a, b] (.dashed "#00F") (some tip)
  return .addOne name (.curve curve)

/-- An arrow from a point, or from the origin, to a point; named `Vector1`, `Vector2`, … by
default. -/
def vector (s : Session α) (start : Option (Reference α)) (finish : Reference α)
    (name : Option String) : Except ConstructionError (Plan α) := do
  let a ← match start with
    | some r => s.registry.position r
    | none => pure Coord.origin
  let b ← s.registry.position finish
  let name ← s.nameFor name "Vector"
  let d := b - a
  let tip := Tooltip.write name [
    "Start: " ++ a.text,
    "End: " ++ b.text,
    "Length: " ++ Numeral.twoPlaces d.norm,
    "Direction: (" ++ Numeral.twoPlaces d.x ++ ", " ++ Numeral.twoPlaces d.y ++ ")"]
  let curve ← Curve.polyline [a, b] (.solid "#FF4500") (some tip)
  return .addOne name (.curve curve)

/-! ## Lines built on a curve -/

/-- The segment from a point to its foot on a line; named `Perpendicular1`, `Perpendicular2`, … by
default. -/
def perpendicular (s : Session α) (place base : Reference α) (name : Option String) :
    Except ConstructionError (Plan α) := do
  let p ← s.registry.position place
  let (a, b) := (← s.registry.curveAt base).endpoints
  let foot ← Line.foot s.settings.tolerance p a b
  let name ← s.nameFor name "Perpendicular"
  let tip := Tooltip.write name ["Foot: " ++ foot.text]
  let curve ← Curve.polyline [p, foot] (.dashed "#A0A") (some tip)
  return .addOne name (.curve curve)

/-- The segment from a point that is parallel to a line and as long as the line's first two vertices
are apart; named `Parallel1`, `Parallel2`, … by default. -/
def parallel (s : Session α) (place base : Reference α) (name : Option String) :
    Except ConstructionError (Plan α) := do
  let p ← s.registry.position place
  let (a, b) := (← s.registry.curveAt base).endpoints
  let d := b - a
  if s.settings.tolerance.tiny d.norm then throw (.degenerateLine .zeroBase)
  let name ← s.nameFor name "Parallel"
  let q := p + d
  let curve ← Curve.polyline [p, q] (.dashed "#0AA") (some (endsTooltip name p q))
  return .addOne name (.curve curve)

end Straightedge.Session
