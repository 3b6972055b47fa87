import Straightedge.Scalar

/-! # Positions and directions in the plane

* **`Coord`**: a position or a direction, with vector arithmetic.
* **`Coord.norm`**, **`Coord.dot`**, **`Coord.cross`**: length, inner product, signed area.
* **`distance`**, **`midpoint`**: of two positions.
* **`Coord.text`**: a position as tooltips show it. -/

namespace Straightedge

/-- A position or a direction. -/
@[ext]
structure Coord (α : Type) where
  /-- Horizontal component. -/
  x : α
  /-- Vertical component. -/
  y : α

namespace Coord

variable {α : Type} [Scalar α]

instance : Add (Coord α) := ⟨fun p q => ⟨p.x + q.x, p.y + q.y⟩⟩

instance : Sub (Coord α) := ⟨fun p q => ⟨p.x - q.x, p.y - q.y⟩⟩

@[simp] theorem add_x (p q : Coord α) : (p + q).x = p.x + q.x := rfl

@[simp] theorem add_y (p q : Coord α) : (p + q).y = p.y + q.y := rfl

@[simp] theorem sub_x (p q : Coord α) : (p - q).x = p.x - q.x := rfl

@[simp] theorem sub_y (p q : Coord α) : (p - q).y = p.y - q.y := rfl

/-- The origin. -/
def origin : Coord α := ⟨Scalar.zero, Scalar.zero⟩

/-- Both components times `k`. -/
def scale (p : Coord α) (k : α) : Coord α := ⟨p.x * k, p.y * k⟩

/-- Both components divided by `k`. -/
def divide (p : Coord α) (k : α) : Coord α := ⟨p.x / k, p.y / k⟩

@[simp] theorem scale_x (p : Coord α) (k : α) : (p.scale k).x = p.x * k := rfl

@[simp] theorem scale_y (p : Coord α) (k : α) : (p.scale k).y = p.y * k := rfl

@[simp] theorem divide_x (p : Coord α) (k : α) : (p.divide k).x = p.x / k := rfl

@[simp] theorem divide_y (p : Coord α) (k : α) : (p.divide k).y = p.y / k := rfl

/-- Inner product. -/
def dot (u v : Coord α) : α := u.x * v.x + u.y * v.y

/-- Signed area of the parallelogram that `u` and `v` span; positive if `v` lies to the left. -/
def cross (u v : Coord α) : α := u.x * v.y - u.y * v.x

/-- Squared length. -/
def normSquared (v : Coord α) : α := v.x * v.x + v.y * v.y

/-- Length. -/
def norm (v : Coord α) : α := Scalar.sqrt v.normSquared

/-- Whether both components are finite. -/
def isFinite (p : Coord α) : Bool := Scalar.isFinite p.x && Scalar.isFinite p.y

/-- The direction a quarter turn to the left. -/
def turnLeft (v : Coord α) : Coord α := ⟨-v.y, v.x⟩

/-- The position at distance `radius` from the origin in the direction of `angle` (radians). -/
def polar (radius angle : α) : Coord α := ⟨radius * Scalar.cos angle, radius * Scalar.sin angle⟩

/-- The angle (radians) of a direction. -/
def heading (v : Coord α) : α := Scalar.atan2 v.y v.x

/-- A position as tooltips show it. -/
def text [Numeral α] (p : Coord α) : String :=
  "(" ++ Numeral.shown p.x ++ ", " ++ Numeral.shown p.y ++ ")"

end Coord

variable {α : Type} [Scalar α]

/-- Distance of two positions. -/
def distance (a b : Coord α) : α := (b - a).norm

/-- The position half-way between two positions. -/
def midpoint (a b : Coord α) : Coord α := (a + b).divide (Scalar.ofNat 2)

end Straightedge
