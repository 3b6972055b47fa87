import Straightedge.ConstructionError
import Straightedge.Plane.Tolerance
import Straightedge.Plane.Window

/-! # Lines

Constructions on infinite lines. Each of them refuses input that would make it divide by a
negligible quantity.

* **`Course`**: how a line through a position goes on.
* **`chord`**: the part of a line inside a window.
* **`intersection`**: the common point of two lines.
* **`foot`**: the orthogonal projection onto a line.
* **`circumcenter`**: the position equally far from three others. -/

namespace Straightedge.Line

variable {α : Type} [Scalar α]

/-- How a line through a position goes on. -/
inductive Course (α : Type)
  /-- Through a second position. -/
  | through (q : Coord α)
  /-- Along a direction. -/
  | along (v : Coord α)

/-- The direction of the line through `p` with the given course, unless it is negligible. -/
def Course.direction (tol : Tolerance α) (p : Coord α) :
    Course α → Except ConstructionError (Coord α)
  | .through q =>
    if tol.same p q then .error (.degenerateLine .coincidentPoints) else .ok (q - p)
  | .along v =>
    if tol.negligible v.x && tol.negligible v.y then .error (.degenerateLine .zeroDirection)
    else .ok v

/-! ## Chords -/

/-- The positions of a list that coincide with none before them. -/
def distinct (tol : Tolerance α) (ps : List (Coord α)) : List (Coord α) :=
  ps.foldl (fun kept p => if kept.any (tol.same · p) then kept else kept ++ [p]) []

/-- Where the line `y = slope · x + offset` meets the sides of a window: left and right, and unless
it is all but horizontal also lower and upper. -/
def crossings (tol : Tolerance α) (w : Window α) (slope offset : α) : List (Coord α) :=
  let left := slope * w.minX + offset
  let right := slope * w.maxX + offset
  let lower := (w.minY - offset) / slope
  let upper := (w.maxY - offset) / slope
  let steep := Scalar.lt tol.coincidence (Scalar.abs slope)
  (if w.spansY left then [⟨w.minX, left⟩] else [])
    ++ (if w.spansY right then [⟨w.maxX, right⟩] else [])
    ++ (if steep && w.spansX lower then [⟨lower, w.minY⟩] else [])
    ++ (if steep && w.spansX upper then [⟨upper, w.maxY⟩] else [])

/-- The first of the leftmost positions. -/
def leftmost (p : Coord α) (ps : List (Coord α)) : Coord α :=
  ps.foldl (fun best q => if Scalar.lt q.x best.x then q else best) p

/-- The last of the rightmost positions. -/
def rightmost (p : Coord α) (ps : List (Coord α)) : Coord α :=
  ps.foldl (fun best q => if Scalar.lt q.x best.x then best else q) p

/-- The ends of the chord of the line through `p` in a window, from left to right, of a vertical line
from bottom to top. A line that meets the window in less than two distinct positions misses it. -/
def chord (tol : Tolerance α) (w : Window α) (p : Coord α) (course : Course α) :
    Except ConstructionError (Coord α × Coord α) := do
  let v ← course.direction tol p
  if tol.negligible v.x then
    if w.spansX p.x then return (⟨p.x, w.minY⟩, ⟨p.x, w.maxY⟩)
    else throw (.degenerateLine .missesWindow)
  else
    let slope := v.y / v.x
    let offset := p.y - slope * p.x
    match distinct tol (crossings tol w slope offset) with
    | first :: second :: rest =>
      return (leftmost first (second :: rest), rightmost first (second :: rest))
    | _ => throw (.degenerateLine .missesWindow)

/-! ## Intersections, projections, circles -/

/-- The common point of line `ab` and line `cd`. Lines are parallel if the sine of their angle is
negligible. -/
def intersection (tol : Tolerance α) (a b c d : Coord α) :
    Except ConstructionError (Coord α) :=
  let u := b - a
  let v := d - c
  let lengthU := u.norm
  let lengthV := v.norm
  if tol.tiny lengthU || tol.tiny lengthV then .error (.degenerateLine .zeroLength)
  else
    let area := u.cross v
    if Scalar.lt (Scalar.abs (area / (lengthU * lengthV))) tol.parallel then .error .parallelLines
    else
      let t := (c - a).cross v / area
      .ok (a + u.scale t)

/-- The foot of the perpendicular from `p` to line `ab`. -/
def foot (tol : Tolerance α) (p a b : Coord α) : Except ConstructionError (Coord α) :=
  let u := b - a
  if tol.tiny u.norm then .error (.degenerateLine .zeroBase)
  else
    let t := (p - a).dot u / u.normSquared
    .ok (a + u.scale t)

/-- The center of the circle through three positions: where the perpendicular bisectors of `ab` and
`bc` meet. -/
def circumcenter (tol : Tolerance α) (a b c : Coord α) : Except ConstructionError (Coord α) :=
  let first := midpoint a b
  let second := midpoint b c
  intersection tol first (first + (b - a).turnLeft) second (second + (c - b).turnLeft)

end Straightedge.Line
