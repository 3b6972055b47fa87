import Straightedge.Plane.Coord

/-! # Windows

A window is a box with sides along the axes. Charts show one, and infinite lines are drawn as their
chord in one.

* **`Window`**: the box.
* **`Window.bounding?`**: the smallest window around given positions.
* **`Window.pad`**: more room on all four sides.
* **`Window.squared`**: both axes made as long as the longer one. -/

namespace Straightedge

/-- The box `[minX, maxX] × [minY, maxY]`. -/
structure Window (α : Type) where
  /-- Left side. -/
  minX : α
  /-- Right side. -/
  maxX : α
  /-- Lower side. -/
  minY : α
  /-- Upper side. -/
  maxY : α

namespace Window

variable {α : Type} [Scalar α]

/-- Ten units to every side of the origin. -/
def standard : Window α where
  minX := -Scalar.ofNat 10
  maxX := Scalar.ofNat 10
  minY := -Scalar.ofNat 10
  maxY := Scalar.ofNat 10

/-- Length of the horizontal sides. -/
def width (w : Window α) : α := w.maxX - w.minX

/-- Length of the vertical sides. -/
def height (w : Window α) : α := w.maxY - w.minY

/-- The middle of the window. -/
def center (w : Window α) : Coord α :=
  ⟨(w.minX + w.maxX) / Scalar.ofNat 2, (w.minY + w.maxY) / Scalar.ofNat 2⟩

/-- Whether `x` lies between the left and the right side. -/
def spansX (w : Window α) (x : α) : Bool := Scalar.le w.minX x && Scalar.le x w.maxX

/-- Whether `y` lies between the lower and the upper side. -/
def spansY (w : Window α) (y : α) : Bool := Scalar.le w.minY y && Scalar.le y w.maxY

/-- The window of a single position. -/
def ofCoord (p : Coord α) : Window α := ⟨p.x, p.x, p.y, p.y⟩

/-- The window made large enough for one more position. -/
def extend (w : Window α) (p : Coord α) : Window α where
  minX := Scalar.smaller w.minX p.x
  maxX := Scalar.larger w.maxX p.x
  minY := Scalar.smaller w.minY p.y
  maxY := Scalar.larger w.maxY p.y

/-- The smallest window around positions; none around no position. -/
def bounding? : List (Coord α) → Option (Window α)
  | [] => none
  | p :: ps => some (ps.foldl Window.extend (ofCoord p))

/-- The window with `padding` more room on every side. -/
def pad (w : Window α) (padding : α) : Window α where
  minX := w.minX - padding
  maxX := w.maxX + padding
  minY := w.minY - padding
  maxY := w.maxY + padding

/-- The window with its shorter axis grown about its middle to the length of the longer one. -/
def squared (w : Window α) : Window α :=
  if Scalar.lt w.height w.width then
    { w with
      minY := w.center.y - w.width / Scalar.ofNat 2
      maxY := w.center.y + w.width / Scalar.ofNat 2 }
  else
    { w with
      minX := w.center.x - w.height / Scalar.ofNat 2
      maxX := w.center.x + w.height / Scalar.ofNat 2 }

@[simp] theorem bounding?_cons (p : Coord α) (ps : List (Coord α)) :
    bounding? (p :: ps) = some (ps.foldl Window.extend (ofCoord p)) := rfl

end Window

end Straightedge
