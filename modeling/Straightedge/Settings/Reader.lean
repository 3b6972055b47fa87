import Straightedge.Json.Record
import Straightedge.Settings

/-! # Reading settings

Settings are a JSON record; a field that is left out has its standard value, and unknown fields are
passed over.

* **`Settings.ofDocument?`**: the settings that a JSON value describes.
* **`Settings.read?`**: the settings that a text describes. -/

namespace Straightedge

variable {α : Type} [Scalar α]

/-- The tolerances that a JSON value describes. -/
def Tolerance.ofDocument? (d : Document) : Option (Tolerance α) := do
  let standard : Tolerance α := .standard
  match ← d.record? ["eps_parallel", "eps_dedup", "eps_area"] with
  | [parallel, coincidence, area] =>
    return {
      parallel := ← Document.optionalField standard.parallel Document.scalar? parallel
      coincidence := ← Document.optionalField standard.coincidence Document.scalar? coincidence
      area := ← Document.optionalField standard.area Document.scalar? area }
  | _ => none

/-- The window that a JSON value describes; all four sides have to be there. -/
def Window.ofDocument? (d : Document) : Option (Window α) := do
  match ← d.record? ["minX", "maxX", "minY", "maxY"] with
  | [minX, maxX, minY, maxY] =>
    return {
      minX := ← Document.requiredField Document.scalar? minX
      maxX := ← Document.requiredField Document.scalar? maxX
      minY := ← Document.requiredField Document.scalar? minY
      maxY := ← Document.requiredField Document.scalar? maxY }
  | _ => none

/-- The policy that a JSON value names: its word, or an object with the word as its only key and
nothing as its value. -/
def ErrorPolicy.ofDocument? : Document → Option ErrorPolicy
  | .object [(some key, .null)] => ErrorPolicy.ofWord? (String.ofList key)
  | d => d.word? >>= ErrorPolicy.ofWord?

namespace Settings

/-- The keys of the fields of settings, in the order of a list. -/
def keys : List String := ["geom", "defaultView", "padding", "curveSegments", "arcSegments",
  "arcRadius", "labelFontSize", "onError"]

/-- The settings that a JSON value describes. -/
def ofDocument? (d : Document) : Option (Settings α) := do
  let standard : Settings α := .standard
  match ← d.record? keys with
  | [tolerance, defaultWindow, padding, curveSegments, arcSegments, arcRadius, labelFontSize,
      onError] =>
    return {
      tolerance := ← Document.optionalField standard.tolerance Tolerance.ofDocument? tolerance
      defaultWindow :=
        ← Document.optionalField standard.defaultWindow Window.ofDocument? defaultWindow
      padding := ← Document.optionalField standard.padding Document.scalar? padding
      curveSegments := ← Document.optionalField standard.curveSegments Document.count? curveSegments
      arcSegments := ← Document.optionalField standard.arcSegments Document.count? arcSegments
      arcRadius := ← Document.optionalField standard.arcRadius Document.scalar? arcRadius
      labelFontSize := ← Document.optionalField standard.labelFontSize Document.scalar? labelFontSize
      onError := ← Document.optionalField standard.onError ErrorPolicy.ofDocument? onError }
  | _ => none

/-- The settings that a text describes. -/
def read? (source : String) : Option (Settings α) :=
  Document.parse? source.toList >>= ofDocument?

end Settings

end Straightedge
