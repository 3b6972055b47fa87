/-! # Failures of constructions

Why a construction, an edit or a setting is refused. Numbers are quoted as the text that shows them.

* **`Expectation`**, **`Degeneracy`**, **`InvalidParameter`**: the causes in detail.
* **`ConstructionError`**: the failure.
* **`ConstructionError.kind`**, **`ConstructionError.message`**: its short name and its wording. -/

namespace Straightedge

/-- Upper bound on the vertices of a sampled or generated curve. -/
def vertexLimit : Nat := 10000

/-- What a reference should have been. -/
inductive Expectation
  /-- A point by name, or a position. -/
  | pointOrPosition
  /-- A position. -/
  | position
  /-- A curve by name. -/
  | curve
  /-- A closed curve by name. -/
  | polygon
  /-- A point, a curve or a direction. -/
  | pointCurveOrDirection
  /-- A direction. -/
  | direction
  deriving DecidableEq, Repr

/-- The wording of an expectation. -/
def Expectation.message : Expectation → String
  | pointOrPosition => "a point name or [x, y]"
  | position => "[x, y]"
  | curve => "a line or curve name"
  | polygon => "a polygon name"
  | pointCurveOrDirection => "a point, a line or a direction vector"
  | direction => "a direction <dx, dy>"

/-- Why a line cannot be used. -/
inductive Degeneracy
  /-- The two points that should span it coincide. -/
  | coincidentPoints
  /-- Its direction is zero. -/
  | zeroDirection
  /-- It has no chord in the window. -/
  | missesWindow
  /-- One of two lines to be intersected has length zero. -/
  | zeroLength
  /-- The line it is built on has length zero. -/
  | zeroBase
  /-- A leg of an angle has length zero. -/
  | zeroLeg
  deriving DecidableEq, Repr

/-- The wording of a degeneracy. -/
def Degeneracy.message : Degeneracy → String
  | coincidentPoints => "both points coincide"
  | zeroDirection => "direction is the zero vector"
  | missesWindow => "line misses the viewport"
  | zeroLength => "line has zero length"
  | zeroBase => "base line has zero length"
  | zeroLeg => "angle leg has zero length"

/-- Why a parameter is out of range. -/
inductive InvalidParameter
  /-- A figure needs a name. -/
  | emptyName
  /-- A color needs a text. -/
  | emptyColor
  /-- A position with a coordinate that is not finite. -/
  | coordinateNotFinite
  /-- A curve with a vertex that is not finite. -/
  | vertexNotFinite
  /-- More vertices than a curve may have. -/
  | tooManyVertices (what : String) (got : Nat)
  /-- A count of segments outside its range. -/
  | countOutOfRange (what : String) (got : Nat)
  /-- A setting that has to be positive. -/
  | settingNotPositive (what got : String)
  /-- A padding below zero or not finite. -/
  | paddingNegative (got : String)
  /-- A measure that has to be positive and finite. -/
  | notPositive (what got : String)
  /-- A number that has to be finite. -/
  | notFinite (what got : String)
  /-- The rotation of an ellipse is not finite. -/
  | rotationNotFinite
  /-- The length of a segment is zero or not finite. -/
  | segmentLength (got : String)
  /-- The end of a segment of this length is not finite. -/
  | segmentOverflow (length : String)
  /-- The first corner of a regular polygon is its center. -/
  | centerIsVertex
  /-- The heading of a regular polygon is zero or not finite. -/
  | headingZero
  /-- A transformed figure is not finite. -/
  | transformOverflow (name : String)
  /-- An axis whose lower limit is not below its upper limit. -/
  | axisOrder (minX maxX minY maxY : String)
  deriving DecidableEq, Repr

/-- The wording of an invalid parameter. -/
def InvalidParameter.message : InvalidParameter → String
  | emptyName => "empty name"
  | emptyColor => "empty color"
  | coordinateNotFinite => "non-finite coordinate"
  | vertexNotFinite => "non-finite vertex coordinate"
  | tooManyVertices what got =>
    what ++ " exceeds the limit of " ++ Nat.repr vertexLimit ++ " vertices, got " ++ Nat.repr got
  | countOutOfRange what got =>
    what ++ " must be in 1..=" ++ Nat.repr vertexLimit ++ ", got " ++ Nat.repr got
  | settingNotPositive what got => what ++ " must be positive, got " ++ got
  | paddingNegative got => "padding must be non-negative, got " ++ got
  | notPositive what got => what ++ " must be positive and finite, got " ++ got
  | notFinite what got => what ++ " must be finite, got " ++ got
  | rotationNotFinite => "rotation must be finite"
  | segmentLength got => "segment length must be finite and non-zero, got " ++ got
  | segmentOverflow length => "segment end leaves the finite range, length " ++ length
  | centerIsVertex => "center and vertex coincide"
  | headingZero => "direction must be a non-zero finite vector"
  | transformOverflow name => "transforming \"" ++ name ++ "\" leaves the finite range"
  | axisOrder minX maxX minY maxY =>
    "axis limits need min < max, got x [" ++ minX ++ ", " ++ maxX ++ "], y [" ++ minY ++ ", "
      ++ maxY ++ "]"

/-- Why a construction is refused. -/
inductive ConstructionError
  /-- No figure has this name. -/
  | notFound (name : String)
  /-- A reference resolves to the wrong kind of thing; what was found is quoted. -/
  | invalidReference (found : String) (expected : Expectation)
  /-- The name is taken. -/
  | nameCollision (name : String)
  /-- Two lines do not meet. -/
  | parallelLines
  /-- A line cannot be used. -/
  | degenerateLine (cause : Degeneracy)
  /-- A figure needs more vertices. -/
  | tooFewVertices (needed got : Nat)
  /-- A parameter is out of range. -/
  | invalidParameter (cause : InvalidParameter)
  deriving DecidableEq, Repr

namespace ConstructionError

/-- The short name of a failure. -/
def kind : ConstructionError → String
  | notFound _ => "NotFound"
  | invalidReference _ _ => "InvalidReference"
  | nameCollision _ => "NameCollision"
  | parallelLines => "ParallelLines"
  | degenerateLine _ => "DegenerateLine"
  | tooFewVertices _ _ => "TooFewVertices"
  | invalidParameter _ => "InvalidParameter"

/-- The wording of a failure. -/
def message : ConstructionError → String
  | notFound name => "element \"" ++ name ++ "\" not found"
  | invalidReference found expected =>
    "invalid reference " ++ found ++ ": expected " ++ expected.message
  | nameCollision name => "name \"" ++ name ++ "\" is already taken"
  | parallelLines => "lines are parallel"
  | degenerateLine cause => "degenerate line: " ++ cause.message
  | tooFewVertices needed got =>
    "need at least " ++ Nat.repr needed ++ " vertices, got " ++ Nat.repr got
  | invalidParameter cause => "invalid parameter: " ++ cause.message

/-- The taken name of a collision. -/
def takenName? : ConstructionError → Option String
  | nameCollision name => some name
  | _ => none

end ConstructionError

end Straightedge
