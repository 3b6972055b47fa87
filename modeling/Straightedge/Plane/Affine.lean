import Straightedge.Plane.Coord

/-! # Affine maps of the plane

* **`Affine`**: a linear part followed by a shift.
* **`Affine.translation`**, **`Affine.rotation`**, **`Affine.reflection`**: the maps of scripts.
* **`Affine.compose`**: composition.
* **`Affine.inverseBy?`**: the inverse, with any way to invert linear maps; **`Affine.inverse?`** is
  the one by cofactors.
* **`Affine.chain`**: the composite of a list of maps. -/

namespace Straightedge

/-- A linear map, by the rows of its matrix. -/
@[ext]
structure Linear (α : Type) where
  /-- First row, first column. -/
  m11 : α
  /-- First row, second column. -/
  m12 : α
  /-- Second row, first column. -/
  m21 : α
  /-- Second row, second column. -/
  m22 : α

namespace Linear

variable {α : Type} [Scalar α]

/-- The map that changes nothing. -/
def identity : Linear α := ⟨Scalar.ofNat 1, Scalar.zero, Scalar.zero, Scalar.ofNat 1⟩

/-- The map with every entry negated. -/
def neg (m : Linear α) : Linear α := ⟨-m.m11, -m.m12, -m.m21, -m.m22⟩

/-- The image of a direction. -/
def apply (m : Linear α) (v : Coord α) : Coord α :=
  ⟨m.m11 * v.x + m.m12 * v.y, m.m21 * v.x + m.m22 * v.y⟩

/-- First `n`, then `m`: the columns of `n` mapped by `m`. -/
def compose (m n : Linear α) : Linear α :=
  let first := m.apply ⟨n.m11, n.m21⟩
  let second := m.apply ⟨n.m12, n.m22⟩
  ⟨first.x, second.x, first.y, second.y⟩

/-- Determinant. -/
def det (m : Linear α) : α := m.m11 * m.m22 - m.m21 * m.m12

/-- The inverse by cofactors, if the determinant is not zero. -/
def cofactorInverse? (m : Linear α) : Option (Linear α) :=
  if Scalar.eq m.det Scalar.zero then none
  else some ⟨m.m22 / m.det, -m.m12 / m.det, -m.m21 / m.det, m.m11 / m.det⟩

end Linear

/-- The affine map `v ↦ linear v + shift`. -/
@[ext]
structure Affine (α : Type) where
  /-- Linear part. -/
  linear : Linear α
  /-- Image of the origin. -/
  shift : Coord α

namespace Affine

variable {α : Type} [Scalar α]

/-- The map that changes nothing. -/
def identity : Affine α := ⟨Linear.identity, Coord.origin⟩

/-- Shift by `(dx, dy)`. -/
def translation (dx dy : α) : Affine α := ⟨Linear.identity, ⟨dx, dy⟩⟩

/-- Counterclockwise rotation by an angle in degrees about `pivot`, which keeps its place. -/
def rotation (pivot : Coord α) (degrees : α) : Affine α :=
  let angle := Scalar.radians degrees
  let s := Scalar.sin angle
  let c := Scalar.cos angle
  let linear : Linear α := ⟨c, -s, s, c⟩
  ⟨linear, pivot - linear.apply pivot⟩

/-- Reflection through the point `mirror`. -/
def reflection (mirror : Coord α) : Affine α :=
  ⟨Linear.identity.neg, mirror.scale (Scalar.ofNat 2)⟩

/-- The image of a position. -/
def apply (f : Affine α) (p : Coord α) : Coord α := f.linear.apply p + f.shift

/-- First `g`, then `f`. -/
def compose (f g : Affine α) : Affine α :=
  ⟨f.linear.compose g.linear, f.linear.apply g.shift + f.shift⟩

/-- The inverse, if `invert` finds one of the linear part: it takes the shift back. -/
def inverseBy? (invert : Linear α → Option (Linear α)) (f : Affine α) : Option (Affine α) :=
  (invert f.linear).map fun inverse => ⟨inverse, inverse.neg.apply f.shift⟩

/-- The inverse, with the linear part inverted by cofactors. -/
def inverse? (f : Affine α) : Option (Affine α) := f.inverseBy? Linear.cofactorInverse?

/-- The maps of a list one after another, the first one first. -/
def chain : List (Affine α) → Affine α
  | [] => identity
  | f :: fs => fs.foldl (fun composite next => next.compose composite) f

@[simp] theorem chain_nil : chain ([] : List (Affine α)) = identity := rfl

@[simp] theorem chain_singleton (f : Affine α) : chain [f] = f := rfl

end Affine

end Straightedge
