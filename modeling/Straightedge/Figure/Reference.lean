import Straightedge.Plane.Coord

/-! # References

What the arguments of an operation refer to.

* **`Reference`**: a name, a position, a number or a direction.
* **`Reference.text`**: a reference as error messages quote it. -/

namespace Straightedge

/-- An argument of an operation. -/
inductive Reference (α : Type)
  /-- A figure by its name. -/
  | name (name : String)
  /-- A position. -/
  | position (coord : Coord α)
  /-- A number: a length, a radius. -/
  | number (value : α)
  /-- A direction. -/
  | direction (v : Coord α)

namespace Reference

variable {α : Type}

/-- The name that a reference is. -/
def name? : Reference α → Option String
  | name n => some n
  | _ => none

/-- The number that a reference is. -/
def number? : Reference α → Option α
  | number x => some x
  | _ => none

/-- Whether a reference is a position. -/
def isPosition : Reference α → Bool
  | position _ => true
  | _ => false

/-- A reference as error messages quote it. -/
def text [Scalar α] [Numeral α] : Reference α → String
  | name n => "\"" ++ n ++ "\""
  | position p => p.text
  | number x => Numeral.shown x
  | direction v => "<" ++ Numeral.shown v.x ++ ", " ++ Numeral.shown v.y ++ ">"

end Reference

end Straightedge
