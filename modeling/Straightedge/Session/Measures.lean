import Straightedge.Plane.Sampling
import Straightedge.Session.Shapes

/-! # Measures

Plans for the operations that measure. Each of them also leaves a curve and a label that show what
was measured.

* **`Session.measureDistance`**: the distance of two points.
* **`Session.measureAngle`**: the angle between two legs. -/

namespace Straightedge.Session

variable {α : Type} [Scalar α] [Numeral α]

/-- The names of the ruler and the label of a distance: made of the names of two points, otherwise
numbered. -/
def distanceNames (s : Session α) (first second : Reference α) : String × String :=
  match first.name?, second.name? with
  | some a, some b =>
    (s.registry.freshVariant ("Ruler_" ++ a ++ "_" ++ b),
      s.registry.freshVariant ("Distance_" ++ a ++ "_" ++ b))
  | _, _ => (s.registry.freshName "Ruler", s.registry.freshName "Distance")

/-- The distance of two points, with a thin dashed ruler and a label in its middle. -/
def measureDistance (s : Session α) (first second : Reference α) :
    Except ConstructionError (Plan α) := do
  let a ← s.registry.position first
  let b ← s.registry.position second
  let d := distance a b
  let (rulerName, labelName) := s.distanceNames first second
  let thin := { (Stroke.dashed "#000" : Stroke α) with width := Scalar.ofNat 1 }
  let ruler ← Curve.polyline [a, b] thin none
  let label : Label α := { Label.plain (Straightedge.midpoint a b) (Numeral.twoPlaces d) with
    fontSize := s.settings.labelFontSize }
  return ⟨[.add rulerName (.curve ruler), .add labelName (.label label)], .number d⟩

/-- The name of the arc of an angle. -/
def arcName (base : String) : String := base ++ "_arc"

/-- The name of the label of an angle. -/
def angleLabelName (base : String) : String := base ++ "_label"

/-- The name that an angle's arc and label are named after: the wanted one, if it makes both names
free, or the first of `Angle1`, `Angle2`, … that does. -/
def angleBase (s : Session α) : Option String → Except ConstructionError String
  | some name => do
    s.registry.requireFree (arcName name)
    s.registry.requireFree (angleLabelName name)
    return name
  | none =>
    let numbered := Registry.numbered "Angle"
    return numbered <| s.registry.pairedNumber
      (fun k => arcName (numbered k)) (fun k => angleLabelName (numbered k))

/-- The angle at `b` between the legs to `a` and to `c`, at most half a turn, with an arc from one
leg to the other and a label on its bisector, half again as far out as the arc. -/
def measureAngle (s : Session α) (first vertex second : Reference α) (name : Option String) :
    Except ConstructionError (Plan α) := do
  let a ← s.registry.position first
  let b ← s.registry.position vertex
  let c ← s.registry.position second
  let u := a - b
  let v := c - b
  if s.settings.tolerance.tiny u.norm || s.settings.tolerance.tiny v.norm then
    throw (.degenerateLine .zeroLeg)
  let sweep := Scalar.atan2 (u.cross v) (u.dot v)
  let degrees := Scalar.degrees (Scalar.abs sweep)
  let shown := Numeral.twoPlaces degrees
  let base ← s.angleBase name
  let radius := s.settings.arcRadius
  let start := u.heading
  requireVertexCount "arc segments" s.settings.arcSegments
  let points := Sampling.arc b radius start sweep s.settings.arcSegments
  let bisector := start + sweep / Scalar.ofNat 2
  let place := b + Coord.polar (Scalar.ofDecimal 15 (-1) * radius) bisector
  let tip := Tooltip.write (arcName base) ["Angle: " ++ shown ++ "°"]
  let arc ← Curve.polyline points (.solid "#FFA500") (some tip)
  let label : Label α := { Label.plain place (shown ++ "°") with
    fontSize := s.settings.labelFontSize }
  return ⟨[.add (arcName base) (.curve arc), .add (angleLabelName base) (.label label)],
    .angle degrees shown⟩

end Straightedge.Session
