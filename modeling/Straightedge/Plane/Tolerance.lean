import Straightedge.Plane.Coord

/-! # Tolerances

Below which size a difference counts as none.

* **`Tolerance`**: the three thresholds.
* **`Tolerance.same`**: whether two positions count as one. -/

namespace Straightedge

/-- Thresholds of the plane constructions. -/
structure Tolerance (α : Type) where
  /-- Two lines are parallel if the sine of their angle is smaller. -/
  parallel : α
  /-- Two positions are one if they differ by less on either axis. -/
  coincidence : α
  /-- A ring is degenerate if its area is smaller. -/
  area : α

namespace Tolerance

variable {α : Type} [Scalar α]

/-- One part in a billion throughout. -/
def standard : Tolerance α where
  parallel := Scalar.ofDecimal 1 (-9)
  coincidence := Scalar.ofDecimal 1 (-9)
  area := Scalar.ofDecimal 1 (-9)

/-- Whether a difference on one axis counts as none. -/
def negligible (tol : Tolerance α) (d : α) : Bool := Scalar.lt (Scalar.abs d) tol.coincidence

/-- Whether two positions count as one: they differ negligibly on either axis. -/
def same (tol : Tolerance α) (a b : Coord α) : Bool :=
  tol.negligible (a.x - b.x) && tol.negligible (a.y - b.y)

/-- Whether a length counts as none. -/
def tiny (tol : Tolerance α) (length : α) : Bool := Scalar.lt length tol.coincidence

end Tolerance

end Straightedge
