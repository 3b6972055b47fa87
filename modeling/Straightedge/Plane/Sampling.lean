import Straightedge.Plane.Coord

/-! # Sampled curves

Smooth curves as polylines. A closed curve is sampled at equal steps over a full turn, both ends
included, so that the last vertex repeats the first up to rounding.

* **`ellipse`**, **`circle`**, **`arc`**: sampled curves.
* **`regularPolygon`**: the corners of a regular polygon.
* **`length_ellipse`**, **`length_arc`**, **`length_regularPolygon`**: how many vertices they have. -/

namespace Straightedge.Sampling

variable {α : Type} [Scalar α]

/-- The share `i / n` of a whole. -/
def share (i n : Nat) : α := Scalar.ofNat i / Scalar.ofNat n

/-- A closed curve has at least three segments. -/
def closedSegments (segments : Nat) : Nat := max segments 3

/-- An open curve has at least one segment. -/
def openSegments (segments : Nat) : Nat := max segments 1

/-- Vertices of the ellipse with semi-axes `rx` and `ry`, turned counterclockwise by an angle in
degrees. -/
def ellipse (center : Coord α) (rx ry degrees : α) (segments : Nat) : List (Coord α) :=
  let n := closedSegments segments
  let turn := Scalar.radians degrees
  let s := Scalar.sin turn
  let c := Scalar.cos turn
  (List.range (n + 1)).map fun i =>
    let t := share i n * Scalar.tau
    let x := rx * Scalar.cos t
    let y := ry * Scalar.sin t
    center + ⟨x * c - y * s, x * s + y * c⟩

/-- Vertices of a circle. -/
def circle (center : Coord α) (radius : α) (segments : Nat) : List (Coord α) :=
  ellipse center radius radius Scalar.zero segments

/-- Corners of the regular `n`-gon whose first corner lies at the angle `start` (radians). -/
def regularPolygon (center : Coord α) (radius start : α) (n : Nat) : List (Coord α) :=
  let step := Scalar.tau / Scalar.ofNat n
  (List.range n).map fun k => center + Coord.polar radius (start + Scalar.ofNat k * step)

/-- Vertices of the arc from the angle `start` over the signed angle `sweep` (radians). -/
def arc (center : Coord α) (radius start sweep : α) (segments : Nat) : List (Coord α) :=
  let n := openSegments segments
  (List.range (n + 1)).map fun i => center + Coord.polar radius (start + share i n * sweep)

@[simp] theorem length_ellipse (center : Coord α) (rx ry degrees : α) (segments : Nat) :
    (ellipse center rx ry degrees segments).length = closedSegments segments + 1 := by
  simp [ellipse]

@[simp] theorem length_regularPolygon (center : Coord α) (radius start : α) (n : Nat) :
    (regularPolygon center radius start n).length = n := by
  simp [regularPolygon]

@[simp] theorem length_arc (center : Coord α) (radius start sweep : α) (segments : Nat) :
    (arc center radius start sweep segments).length = openSegments segments + 1 := by
  simp [arc]

end Straightedge.Sampling
