import Straightedge.Session.Basic

/-! # Transforms

Plans for the operations that move a figure. Without a name for a copy the figure itself is moved;
with one, a moved copy is added under that name.

* **`Session.transform`**: a figure moved by an affine map.
* **`Session.translate`**, **`Session.rotate`**, **`Session.reflect`**: by the maps of scripts. -/

namespace Straightedge.Session

variable {α : Type} [Scalar α] [Numeral α]

/-- A number is finite. -/
def requireFinite (what : String) (x : α) : Except ConstructionError Unit :=
  if Scalar.isFinite x then .ok ()
  else .error (.invalidParameter (.notFinite what (Numeral.plain x)))

/-- A figure, or a copy of it under another name, moved by an affine map. -/
def transform (s : Session α) (element : String) (f : Affine α) (copyName : Option String) :
    Except ConstructionError (Plan α) := do
  let moved := (← s.registry.find element).map f
  if !moved.isFinite then throw (.invalidParameter (.transformOverflow element))
  match copyName with
  | none => return ⟨[.replace element moved], .name element⟩
  | some target =>
    s.registry.requireFree target
    return .addOne target (moved.retitle element target)

/-- A figure shifted by `(dx, dy)`. -/
def translate (s : Session α) (element : String) (dx dy : α) (copyName : Option String) :
    Except ConstructionError (Plan α) := do
  requireFinite "dx" dx
  requireFinite "dy" dy
  s.transform element (.translation dx dy) copyName

/-- A figure turned counterclockwise by an angle in degrees about a point. -/
def rotate (s : Session α) (element : String) (pivot : Reference α) (degrees : α)
    (copyName : Option String) : Except ConstructionError (Plan α) := do
  let p ← s.registry.position pivot
  requireFinite "angle" degrees
  s.transform element (.rotation p degrees) copyName

/-- A figure reflected through a point. -/
def reflect (s : Session α) (element : String) (mirror : Reference α)
    (copyName : Option String) : Except ConstructionError (Plan α) := do
  let m ← s.registry.position mirror
  s.transform element (.reflection m) copyName

end Straightedge.Session
