import Straightedge.Plane.Line
import Straightedge.Plane.Sampling
import Straightedge.Session.Basic

/-! # Closed curves

Plans for the operations that make a closed curve.

* **`Session.polygon`**, **`Session.regularPolygon`**: curves with corners.
* **`Session.circle`**, **`Session.circleThrough`**, **`Session.ellipse`**: sampled curves. -/

namespace Straightedge

/-- How the radius of a circle is given. -/
inductive CircleSize (α : Type)
  /-- A number. -/
  | radius (r : α)
  /-- The distance of the first two vertices of a curve. -/
  | segment (name : String)
  /-- A point on the circle. -/
  | through (place : Reference α)

namespace Session

variable {α : Type} [Scalar α] [Numeral α]

/-- A count of vertices is not above the bound. -/
def requireVertexCount (what : String) (n : Nat) : Except ConstructionError Unit :=
  if vertexLimit < n then .error (.invalidParameter (.tooManyVertices what n)) else .ok ()

/-- A measure is positive and finite. -/
def requirePositive (what : String) (x : α) : Except ConstructionError Unit :=
  if !Scalar.isFinite x || Scalar.le x Scalar.zero then
    .error (.invalidParameter (.notPositive what (Numeral.plain x)))
  else .ok ()

/-! ## Polygons -/

/-- A polygon's stroke. -/
def polygonStroke : Stroke α := .solid "#0A0"

/-- A polygon's inside. -/
def polygonFill : String := "rgba(0,170,0,0.3)"

/-- The polygon through at least three points; named `Polygon1`, `Polygon2`, … by default. -/
def polygon (s : Session α) (refs : List (Reference α)) (name : Option String) :
    Except ConstructionError (Plan α) := do
  if refs.length < 3 then throw (.tooFewVertices 3 refs.length)
  let points ← s.registry.positions refs
  let name ← s.nameFor name "Polygon"
  let tip := Tooltip.write name ["Vertices: " ++ Nat.repr points.length]
  let curve ← Curve.ring s.settings.tolerance points polygonStroke (some polygonFill) (some tip)
  return .addOne name (.curve curve)

/-- The direction in which the first corner of a regular polygon lies: towards its vertex `v` from
its center `c`, unless another direction is given. -/
def cornerHeading (c v : Coord α) :
    Option (Reference α) → Except ConstructionError (Coord α)
  | none => return v - c
  | some (.direction d) => return d
  | some (.position d) => return d
  | some other => throw (.invalidReference other.text .direction)

/-- The regular polygon with `n` corners around a center, as large as a vertex is far from the
center; named `RegularPolygon1`, `RegularPolygon2`, … by default. -/
def regularPolygon (s : Session α) (center vertex : Reference α) (n : Nat)
    (direction : Option (Reference α)) (name : Option String) :
    Except ConstructionError (Plan α) := do
  if n < 3 then throw (.tooFewVertices 3 n)
  requireVertexCount "regular polygon" n
  let c ← s.registry.position center
  let v ← s.registry.position vertex
  let radius := distance c v
  if s.settings.tolerance.tiny radius then throw (.invalidParameter .centerIsVertex)
  let heading ← cornerHeading c v direction
  if !heading.isFinite || s.settings.tolerance.tiny heading.norm then
    throw (.invalidParameter .headingZero)
  let points := Sampling.regularPolygon c radius heading.heading n
  let name ← s.nameFor name "RegularPolygon"
  let tip := Tooltip.write name [
    "Center: " ++ c.text,
    "Radius: " ++ Numeral.twoPlaces radius,
    "Vertices: " ++ Nat.repr n]
  let curve ← Curve.ring s.settings.tolerance points polygonStroke (some polygonFill) (some tip)
  return .addOne name (.curve curve)

/-! ## Circles and ellipses -/

/-- The circle of a given center and radius; named `Circle1`, `Circle2`, … by default. -/
def sampledCircle (s : Session α) (center : Coord α) (radius : α) (name : Option String) :
    Except ConstructionError (Plan α) := do
  requireVertexCount "curve segments" s.settings.curveSegments
  let points := Sampling.circle center radius s.settings.curveSegments
  let name ← s.nameFor name "Circle"
  let tip := Tooltip.write name [
    "Center: " ++ center.text,
    "Radius: " ++ Numeral.twoPlaces radius]
  let curve ← Curve.ring s.settings.tolerance points (.solid "#00F") (some "rgba(0,0,255,0.1)")
    (some tip)
  return .addOne name (.curve curve)

/-- The radius of a circle around `c`. -/
def circleRadius (s : Session α) (c : Coord α) : CircleSize α → Except ConstructionError α
  | .radius r => return r
  | .segment name => do
    let (a, b) := (← s.registry.curve name).endpoints
    return distance a b
  | .through place => do return distance c (← s.registry.position place)

/-- A circle around a point. -/
def circle (s : Session α) (center : Reference α) (size : CircleSize α) (name : Option String) :
    Except ConstructionError (Plan α) := do
  let c ← s.registry.position center
  let radius ← s.circleRadius c size
  requirePositive "radius" radius
  s.sampledCircle c radius name

/-- The circle through three points. -/
def circleThrough (s : Session α) (first second third : Reference α) (name : Option String) :
    Except ConstructionError (Plan α) := do
  let a ← s.registry.position first
  let b ← s.registry.position second
  let c ← s.registry.position third
  let center ← Line.circumcenter s.settings.tolerance a b c
  let radius := distance a center
  requirePositive "radius" radius
  s.sampledCircle center radius name

/-- An ellipse with given semi-axes, turned counterclockwise by an angle in degrees; named
`Ellipse1`, `Ellipse2`, … by default. -/
def ellipse (s : Session α) (center : Reference α) (rx ry degrees : α) (name : Option String) :
    Except ConstructionError (Plan α) := do
  let c ← s.registry.position center
  requirePositive "rx" rx
  requirePositive "ry" ry
  if !Scalar.isFinite degrees then throw (.invalidParameter .rotationNotFinite)
  requireVertexCount "curve segments" s.settings.curveSegments
  let points := Sampling.ellipse c rx ry degrees s.settings.curveSegments
  let name ← s.nameFor name "Ellipse"
  let tip := Tooltip.write name [
    "Center: " ++ c.text,
    "rx: " ++ Numeral.shown rx ++ ", ry: " ++ Numeral.shown ry,
    "Rotation: " ++ Numeral.shown degrees ++ "°"]
  let curve ← Curve.ring s.settings.tolerance points (.solid "#800080")
    (some "rgba(128,0,128,0.1)") (some tip)
  return .addOne name (.curve curve)

end Session

end Straightedge
