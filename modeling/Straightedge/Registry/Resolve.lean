import Straightedge.Figure.Reference
import Straightedge.Registry.Basic

/-! # Resolving references

* **`Registry.position`**: the position that a reference denotes.
* **`Registry.curve`**, **`Registry.curveAt`**: the curve under a name, or under a reference. -/

namespace Straightedge.Registry

variable {α : Type} [Scalar α] [Numeral α]

/-- A figure of the wrong kind as an error message quotes it. -/
def quoted (name : String) (figure : Figure α) : String :=
  "\"" ++ name ++ "\" (" ++ figure.kind ++ ")"

/-- The position that a reference denotes: a finite position itself, or that of a point by name. -/
def position (r : Registry α) : Reference α → Except ConstructionError (Coord α)
  | .position p =>
    if p.isFinite then .ok p else .error (.invalidParameter .coordinateNotFinite)
  | .name n => do
    match ← r.find n with
    | .point m => return m.coord
    | other => throw (.invalidReference (quoted n other) .pointOrPosition)
  | other => .error (.invalidReference other.text .pointOrPosition)

/-- The positions that references denote. -/
def positions (r : Registry α) (refs : List (Reference α)) :
    Except ConstructionError (List (Coord α)) :=
  refs.mapM r.position

/-- The curve under a name. -/
def curve (r : Registry α) (name : String) : Except ConstructionError (Curve α) := do
  match ← r.find name with
  | .curve c => return c
  | other => throw (.invalidReference (quoted name other) .curve)

/-- The curve that a reference names. -/
def curveAt (r : Registry α) : Reference α → Except ConstructionError (Curve α)
  | .name n => r.curve n
  | other => .error (.invalidReference other.text .curve)

end Straightedge.Registry
