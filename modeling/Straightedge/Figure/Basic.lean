import Straightedge.ConstructionError
import Straightedge.Figure.Tooltip
import Straightedge.Plane.Affine
import Straightedge.Plane.Ring

/-! # Figures

What a chart is made of: points, curves and labels.

* **`Stroke`**: how a curve is drawn.
* **`Marker`**, **`Curve`**, **`Label`**: the three kinds of figure.
* **`Curve.polyline`**, **`Curve.ring`**: curves with checked vertices.
* **`Figure`**: any of them, with its positions (`Figure.coords`) and their images under a map
  (`Figure.map`). -/

namespace Straightedge

/-! ## Strokes -/

/-- The dashes of a stroke. -/
inductive Pattern
  | solid
  | dashed
  deriving DecidableEq, Repr

/-- The word for a pattern. -/
def Pattern.word : Pattern → String
  | solid => "solid"
  | dashed => "dashed"

/-- How a curve is drawn. -/
structure Stroke (α : Type) where
  /-- Color. -/
  color : String
  /-- Width. -/
  width : α
  /-- Dashes. -/
  pattern : Pattern

/-- An unbroken stroke of width two. -/
def Stroke.solid {α : Type} [Scalar α] (color : String) : Stroke α :=
  ⟨color, Scalar.ofNat 2, .solid⟩

/-- A dashed stroke of width two. -/
def Stroke.dashed {α : Type} [Scalar α] (color : String) : Stroke α :=
  ⟨color, Scalar.ofNat 2, .dashed⟩

/-! ## Points -/

/-- A point. -/
structure Marker (α : Type) where
  /-- Where it lies. -/
  coord : Coord α
  /-- Color. -/
  color : String

/-! ## Curves -/

/-- A polyline. -/
structure Curve (α : Type) where
  /-- Vertices, at least two; those of a closed curve end with the first one again. -/
  vertices : List (Coord α)
  /-- Whether it is closed. -/
  closed : Bool
  /-- How it is drawn. -/
  stroke : Stroke α
  /-- Color of its inside. -/
  fill : Option String
  /-- Text shown beside it. -/
  tooltip : Option String

namespace Curve

variable {α : Type} [Scalar α]

/-- A curve has at least two vertices, and all of them are finite. -/
def requireVertices (vertices : List (Coord α)) : Except ConstructionError Unit :=
  if vertices.length < 2 then .error (.tooFewVertices 2 vertices.length)
  else if vertices.all Coord.isFinite then .ok ()
  else .error (.invalidParameter .vertexNotFinite)

/-- An open curve. -/
def polyline (vertices : List (Coord α)) (stroke : Stroke α) (tooltip : Option String) :
    Except ConstructionError (Curve α) := do
  requireVertices vertices
  return {
    vertices := vertices
    closed := false
    stroke := stroke
    fill := none
    tooltip := tooltip }

/-- A closed curve; its first vertex is repeated at the end unless it already ends there. -/
def ring (tol : Tolerance α) (vertices : List (Coord α)) (stroke : Stroke α)
    (fill tooltip : Option String) : Except ConstructionError (Curve α) := do
  requireVertices vertices
  return {
    vertices := Ring.close tol vertices
    closed := true
    stroke := stroke
    fill := fill
    tooltip := tooltip }

/-- The first two vertices: the points that a line goes through. -/
def endpoints (c : Curve α) : Coord α × Coord α :=
  match c.vertices with
  | first :: second :: _ => (first, second)
  | [only] => (only, only)
  | [] => (Coord.origin, Coord.origin)

/-- The vertices, of a closed curve without the repeated first one. -/
def corners (c : Curve α) : List (Coord α) :=
  if c.closed then c.vertices.dropLast else c.vertices

end Curve

/-! ## Labels -/

/-- A text at a position. -/
structure Label (α : Type) where
  /-- Where it lies. -/
  coord : Coord α
  /-- What it says. -/
  content : String
  /-- Size of its letters. -/
  fontSize : α
  /-- Color. -/
  color : String
  /-- Color behind it. -/
  background : Option String

/-- A black label without background, in letters of size 14. -/
def Label.plain {α : Type} [Scalar α] (coord : Coord α) (content : String) : Label α :=
  ⟨coord, content, Scalar.ofNat 14, "#000", none⟩

/-! ## Figures -/

/-- A point, a curve or a label. -/
inductive Figure (α : Type)
  | point (marker : Marker α)
  | curve (curve : Curve α)
  | label (label : Label α)

namespace Figure

variable {α : Type} [Scalar α]

/-- A point of the given color. -/
def dot (coord : Coord α) (color : String) : Figure α := point ⟨coord, color⟩

/-- The word for the kind of a figure. -/
def kind : Figure α → String
  | point _ => "point"
  | curve c => if c.closed then "polygon" else "line"
  | label _ => "text"

/-- All positions of a figure. -/
def coords : Figure α → List (Coord α)
  | point m => [m.coord]
  | curve c => c.vertices
  | label l => [l.coord]

/-- The figure with every position mapped. -/
def map (f : Affine α) : Figure α → Figure α
  | point m => point { m with coord := f.apply m.coord }
  | curve c => curve { c with vertices := c.vertices.map f.apply }
  | label l => label { l with coord := f.apply l.coord }

/-- Whether every position is finite. -/
def isFinite (figure : Figure α) : Bool := figure.coords.all Coord.isFinite

/-- The figure with its tooltip, if it has one, following a change of name. -/
def retitle (old new : String) : Figure α → Figure α
  | curve c => curve { c with tooltip := c.tooltip.map (Tooltip.retitle old new) }
  | other => other

/-- The figure in another color; the inside of a curve changes only if it has a color. -/
def recolor (color : String) : Figure α → Figure α
  | point m => point { m with color := color }
  | curve c =>
    curve { c with
      stroke := { c.stroke with color := color }
      fill := c.fill.map fun _ => color }
  | label l => label { l with color := color }

omit [Scalar α] in
@[simp] theorem coords_retitle (old new : String) (figure : Figure α) :
    (figure.retitle old new).coords = figure.coords := by
  cases figure <;> rfl

omit [Scalar α] in
@[simp] theorem coords_recolor (color : String) (figure : Figure α) :
    (figure.recolor color).coords = figure.coords := by
  cases figure <;> rfl

end Figure

end Straightedge
