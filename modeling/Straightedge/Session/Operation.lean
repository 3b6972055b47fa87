import Straightedge.Session.Edits
import Straightedge.Session.Lines
import Straightedge.Session.Measures
import Straightedge.Session.Points
import Straightedge.Session.Shapes
import Straightedge.Session.Transforms

/-! # Operations

Everything that can be done to a session, as data.

* **`Operation`**: an operation with its arguments. An absent name asks for a generated one.
* **`Operation.plan`**: what it is about to change.
* **`Operation.perform`**: plans it and carries the plan out.
* **`Session.perform`**: the answer and the session afterwards. -/

namespace Straightedge

/-- An operation on a session. -/
inductive Operation (α : Type)
  | point (place : Reference α) (name : Option String)
  | label (place : Reference α) (content : String) (name : Option String)
  | line (first second : Reference α) (name : Option String)
  | segment (start finish : Reference α) (name : Option String)
  | infiniteLine (first second : Reference α) (name : Option String)
  | vector (start : Option (Reference α)) (finish : Reference α) (name : Option String)
  | polygon (refs : List (Reference α)) (name : Option String)
  | regularPolygon (center vertex : Reference α) (n : Nat) (direction : Option (Reference α))
      (name : Option String)
  | circle (center : Reference α) (size : CircleSize α) (name : Option String)
  | circleThrough (first second third : Reference α) (name : Option String)
  | ellipse (center : Reference α) (rx ry degrees : α) (name : Option String)
  | midpoint (refs : List (Reference α)) (name : Option String)
  | intersection (first second : Reference α) (name : Option String)
  | perpendicular (place base : Reference α) (name : Option String)
  | parallel (place base : Reference α) (name : Option String)
  | distance (first second : Reference α)
  | angle (first vertex second : Reference α) (name : Option String)
  | translate (element : String) (dx dy : α) (copyName : Option String)
  | rotate (element : String) (pivot : Reference α) (degrees : α) (copyName : Option String)
  | reflect (element : String) (mirror : Reference α) (copyName : Option String)
  | recolor (element color : String)
  | rename (old new : String)
  | setTitle (title : String)
  | setAxisLimits (minX maxX minY maxY : α)
  | showAxes (visible : Bool)

namespace Operation

variable {α : Type} [Scalar α] [Numeral α]

/-- What an operation is about to change in a session. -/
def plan (s : Session α) : Operation α → Except ConstructionError (Plan α)
  | point place name => s.point place name
  | label place content name => s.label place content name
  | line first second name => s.line first second name
  | segment start finish name => s.segment start finish name
  | infiniteLine first second name => s.infiniteLine first second name
  | vector start finish name => s.vector start finish name
  | polygon refs name => s.polygon refs name
  | regularPolygon center vertex n direction name => s.regularPolygon center vertex n direction name
  | circle center size name => s.circle center size name
  | circleThrough first second third name => s.circleThrough first second third name
  | ellipse center rx ry degrees name => s.ellipse center rx ry degrees name
  | midpoint refs name => s.midpoint refs name
  | intersection first second name => s.intersection first second name
  | perpendicular place base name => s.perpendicular place base name
  | parallel place base name => s.parallel place base name
  | distance first second => s.measureDistance first second
  | angle first vertex second name => s.measureAngle first vertex second name
  | translate element dx dy copyName => s.translate element dx dy copyName
  | rotate element pivot degrees copyName => s.rotate element pivot degrees copyName
  | reflect element mirror copyName => s.reflect element mirror copyName
  | recolor element color => s.recolor element color
  | rename old new => s.rename old new
  | setTitle title => return ⟨[.setTitle title], .done⟩
  | setAxisLimits minX maxX minY maxY => s.setAxisLimits minX maxX minY maxY
  | showAxes visible => return ⟨[.showAxes visible], .done⟩

/-- Plans an operation on the current session and carries the plan out. -/
def perform (op : Operation α) : Construct α (Value α) := do
  match op.plan (← get) with
  | .ok plan => Session.carryOut plan
  | .error e => throw e

end Operation

/-- The answer of an operation, and the session afterwards. -/
def Session.perform {α : Type} [Scalar α] [Numeral α] (s : Session α) (op : Operation α) :
    Except ConstructionError (Value α) × Session α :=
  Id.run (op.perform.run.run s)

end Straightedge
