import Straightedge.Plane.Tolerance

/-! # Rings of vertices

A ring is a list of vertices, implicitly closed by an edge from its last vertex to its first. It may
repeat its first vertex at its end, which changes neither area nor centroid.

* **`isClosed`**, **`close`**, **`openRing`**: the repeated vertex.
* **`signedArea`**: the area, positive if the ring runs counterclockwise.
* **`centroid?`**: the center of gravity, for a degenerate ring the mean of its vertices. -/

namespace Straightedge.Ring

variable {α : Type} [Scalar α]

/-- Arithmetic mean of positions; none of no position. -/
def mean? : List (Coord α) → Option (Coord α)
  | [] => none
  | p :: ps =>
    some (((p :: ps).foldl (· + ·) Coord.origin).divide (Scalar.ofNat (ps.length + 1)))

/-- Whether the last of several vertices repeats the first. -/
def isClosed (tol : Tolerance α) : List (Coord α) → Bool
  | [] => false
  | [_] => false
  | first :: second :: rest => tol.same first ((second :: rest).getLast (List.cons_ne_nil _ _))

/-- The ring with its first vertex repeated at the end, unless it already ends there. -/
def close (tol : Tolerance α) (vertices : List (Coord α)) : List (Coord α) :=
  match vertices with
  | [] => []
  | first :: rest => if isClosed tol vertices then vertices else first :: rest ++ [first]

/-- The ring without a repeated first vertex at its end. -/
def openRing (tol : Tolerance α) (vertices : List (Coord α)) : List (Coord α) :=
  if isClosed tol vertices then vertices.dropLast else vertices

/-- The edges of a ring, from each vertex to the next and from the last to the first. -/
def edges : List (Coord α) → List (Coord α × Coord α)
  | [] => []
  | first :: rest => (first :: rest).zip (rest ++ [first])

/-- A sum over edges, from the first edge on. -/
def sumEdges (f : Coord α → Coord α → α) (es : List (Coord α × Coord α)) : α :=
  es.foldl (fun sum e => sum + f e.1 e.2) Scalar.zero

/-- Signed area of a ring, positive if it runs counterclockwise. -/
def signedArea (tol : Tolerance α) (vertices : List (Coord α)) : α :=
  sumEdges Coord.cross (edges (openRing tol vertices)) / Scalar.ofNat 2

/-- Center of gravity of a ring. A ring whose area is negligible has the mean of its vertices; only
the empty ring has none. -/
def centroid? (tol : Tolerance α) (vertices : List (Coord α)) : Option (Coord α) :=
  match openRing tol vertices with
  | [] => none
  | ring =>
    let es := edges ring
    let area := sumEdges Coord.cross es / Scalar.ofNat 2
    if Scalar.lt (Scalar.abs area) tol.area then mean? ring
    else
      let sumX := sumEdges (fun p q => (p.x + q.x) * p.cross q) es
      let sumY := sumEdges (fun p q => (p.y + q.y) * p.cross q) es
      some ⟨sumX / (Scalar.ofNat 6 * area), sumY / (Scalar.ofNat 6 * area)⟩

@[simp] theorem isClosed_nil (tol : Tolerance α) : isClosed tol [] = false := rfl

@[simp] theorem isClosed_singleton (tol : Tolerance α) (p : Coord α) :
    isClosed tol [p] = false := rfl

omit [Scalar α] in
theorem length_edges (ring : List (Coord α)) : (edges ring).length = ring.length := by
  cases ring <;> simp [edges]

end Straightedge.Ring
