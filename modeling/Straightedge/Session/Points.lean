import Straightedge.Plane.Line
import Straightedge.Session.Basic

/-! # Points and labels

Plans for the operations that make a point or a label.

* **`Session.point`**: a point at a position.
* **`Session.midpoint`**: the middle of two points or the centroid of several, or of a polygon.
* **`Session.intersection`**: where two lines meet.
* **`Session.label`**: a text at a point. -/

namespace Straightedge.Session

variable {α : Type} [Scalar α] [Numeral α]

/-- A point at a position; named `P1`, `P2`, … by default. -/
def point (s : Session α) (place : Reference α) (name : Option String) :
    Except ConstructionError (Plan α) := do
  if !place.isPosition then throw (.invalidReference place.text .position)
  let p ← s.registry.position place
  let name ← s.nameFor name "P"
  return .addOne name (.dot p "red")

/-- The center of references: of one polygon its centroid, of two points their middle, of more the
centroid of the ring that they span. -/
def center (s : Session α) : List (Reference α) → Except ConstructionError (Coord α)
  | [] => throw (.tooFewVertices 1 0)
  | [polygon] => do
    let curve ← s.registry.curveAt polygon
    if !curve.closed then throw (.invalidReference polygon.text .polygon)
    match Ring.centroid? s.settings.tolerance curve.corners with
    | some center => return center
    | none => throw (.tooFewVertices 1 0)
  | [first, second] => do
    let a ← s.registry.position first
    let b ← s.registry.position second
    return Straightedge.midpoint a b
  | many => do
    let points ← s.registry.positions many
    match Ring.centroid? s.settings.tolerance points with
    | some center => return center
    | none => throw (.tooFewVertices 3 0)

/-- A point at the center of references; named `M1`, `M2`, … by default. -/
def midpoint (s : Session α) (refs : List (Reference α)) (name : Option String) :
    Except ConstructionError (Plan α) := do
  let p ← s.center refs
  let name ← s.nameFor name "M"
  return .addOne name (.dot p "red")

/-- The point where two lines meet, each taken through the first two vertices of a curve; named
`SP1`, `SP2`, … by default. -/
def intersection (s : Session α) (first second : Reference α) (name : Option String) :
    Except ConstructionError (Plan α) := do
  let (a, b) := (← s.registry.curveAt first).endpoints
  let (c, d) := (← s.registry.curveAt second).endpoints
  let p ← Line.intersection s.settings.tolerance a b c d
  let name ← s.nameFor name "SP"
  return .addOne name (.dot p "green")

/-- A text at a point, on a light background; named `Text1`, `Text2`, … by default. -/
def label (s : Session α) (place : Reference α) (content : String) (name : Option String) :
    Except ConstructionError (Plan α) := do
  let p ← s.registry.position place
  let name ← s.nameFor name "Text"
  return .addOne name <| .label { Label.plain p content with
    fontSize := s.settings.labelFontSize
    background := some "rgba(255,255,255,0.8)" }

end Straightedge.Session
