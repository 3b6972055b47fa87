/-! # The operations that scripts can call

Each operation has one English name; most have a German one for older scripts. Names are
case-sensitive.

* **`Verb`**: the operations.
* **`Verb.all`**: all of them, in the order in which they are listed to users.
* **`Verb.lookup?`**: the operation that a word names.
* **`Verb.lookup?_name`**: every operation is found under its name. -/

namespace Straightedge.Script

/-- An operation of the script language. -/
inductive Verb
  | point
  | line
  | segment
  | infiniteLine
  | vector
  | polygon
  | regularPolygon
  | circle
  | ellipse
  | midpoint
  | intersection
  | perpendicular
  | parallel
  | distance
  | angle
  | text
  | translate
  | rotate
  | reflect
  | color
  | rename
  | title
  | axisLimits
  | showAxes
  deriving DecidableEq, Repr

namespace Verb

/-- The operations in listed order. -/
def all : List Verb := [
  point, line, segment, infiniteLine, vector, polygon, regularPolygon, circle, ellipse, midpoint,
  intersection, perpendicular, parallel, distance, angle, text, translate, rotate, reflect,
  color, rename, title, axisLimits, showAxes]

/-- The English name of an operation. -/
def name : Verb → String
  | point => "Point"
  | line => "Line"
  | segment => "Segment"
  | infiniteLine => "InfiniteLine"
  | vector => "Vector"
  | polygon => "Polygon"
  | regularPolygon => "RegularPolygon"
  | circle => "Circle"
  | ellipse => "Ellipse"
  | midpoint => "Midpoint"
  | intersection => "Intersection"
  | perpendicular => "Perpendicular"
  | parallel => "Parallel"
  | distance => "Distance"
  | angle => "Angle"
  | text => "Text"
  | translate => "Translate"
  | rotate => "Rotate"
  | reflect => "Reflect"
  | color => "Color"
  | rename => "Rename"
  | title => "Title"
  | axisLimits => "AxisLimits"
  | showAxes => "ShowAxes"

/-- Further names of an operation. -/
def aliases : Verb → List String
  | point => ["Punkt"]
  | line => ["Linie"]
  | segment => ["Strecke"]
  | infiniteLine => ["Gerade"]
  | vector => ["Vektor"]
  | polygon => ["Vieleck"]
  | regularPolygon => []
  | circle => ["Kreis"]
  | ellipse => []
  | midpoint => ["Mittelpunkt"]
  | intersection => ["Schnittpunkt"]
  | perpendicular => ["Lot"]
  | parallel => ["Parallele"]
  | distance => ["Abstand"]
  | angle => ["Winkel"]
  | text => []
  | translate => ["Verschiebung"]
  | rotate => ["Rotation"]
  | reflect => ["Spiegelung"]
  | color => ["Farbe"]
  | rename => ["Name"]
  | title => ["Titel"]
  | axisLimits => ["UserAxisLimits"]
  | showAxes => ["Diagramm"]

/-- How an operation is called. -/
def usage : Verb → String
  | point => "Point(x, y | [x, y], name?)"
  | line => "Line(A, B, name?)"
  | segment => "Segment(A, B | length, name?)"
  | infiniteLine => "InfiniteLine(A, B | <dx, dy> | line, name?)"
  | vector => "Vector(end, \"name\"?) | Vector(start, end, name?)"
  | polygon =>
    "Polygon(A, B, C, ..., \"name\"?) | Polygon([A, B, C])"
      ++ " | Polygon(center, vertex, n, <dx, dy>?)"
  | regularPolygon => "RegularPolygon(center, vertex, n, <dx, dy>?, name?)"
  | circle => "Circle(M, r | segment | P, name?) | Circle(A, B, C, name?)"
  | ellipse => "Ellipse(M, rx, ry, rotation?, name?)"
  | midpoint => "Midpoint(A, B) | Midpoint(polygon) | Midpoint(A, B, C, ..., \"name\"?)"
  | intersection => "Intersection(g, h, name?)"
  | perpendicular => "Perpendicular(P, g, name?)"
  | parallel => "Parallel(P, g, name?)"
  | distance => "Distance(A, B)"
  | angle => "Angle(A, B, C, name?)"
  | text => "Text(P, content, name?)"
  | translate => "Translate(element, dx, dy, newName?)"
  | rotate => "Rotate(element, pivot, degrees, newName?)"
  | reflect => "Reflect(element, mirror, newName?)"
  | color => "Color(element, color)"
  | rename => "Rename(old, new)"
  | title => "Title(text)"
  | axisLimits => "AxisLimits(minX, maxX, minY, maxY)"
  | showAxes => "ShowAxes(true | false)"

/-- The operation that a word names. -/
def lookup? (word : String) : Option Verb :=
  all.find? fun v => v.name = word || v.aliases.contains word

theorem mem_all (v : Verb) : v ∈ all := by cases v <;> decide

/-- Every operation is found under its name. -/
theorem lookup?_name (v : Verb) : lookup? v.name = some v := by cases v <;> decide

end Verb

end Straightedge.Script
