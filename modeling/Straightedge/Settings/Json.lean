import Straightedge.AxisLimits
import Straightedge.Json.Value
import Straightedge.Settings

/-! # Settings as data

The JSON forms of settings and axis limits, with their fields in alphabetical order.

* **`Settings.toJson`**, **`AxisLimits.toJson`**: the JSON forms. -/

namespace Straightedge

variable {α : Type}

/-- The JSON form of tolerances. -/
def Tolerance.toJson (t : Tolerance α) : Json α :=
  .object [("eps_area", .number t.area), ("eps_dedup", .number t.coincidence),
    ("eps_parallel", .number t.parallel)]

/-- The JSON form of a window. -/
def Window.toJson (w : Window α) : Json α :=
  .object [("maxX", .number w.maxX), ("maxY", .number w.maxY),
    ("minX", .number w.minX), ("minY", .number w.minY)]

/-- The JSON form of settings, with every field. -/
def Settings.toJson (s : Settings α) : Json α :=
  .object [
    ("arcRadius", .number s.arcRadius),
    ("arcSegments", .count s.arcSegments),
    ("curveSegments", .count s.curveSegments),
    ("defaultView", s.defaultWindow.toJson),
    ("geom", s.tolerance.toJson),
    ("labelFontSize", .number s.labelFontSize),
    ("onError", .text s.onError.word),
    ("padding", .number s.padding)]

/-- The JSON form of one limit. -/
def AxisLimits.sideToJson : Option α → Json α
  | some x => .number x
  | none => .null

/-- The JSON form of axis limits; a side that is kept is null. -/
def AxisLimits.toJson (l : AxisLimits α) : Json α :=
  .object [("maxX", sideToJson l.maxX), ("maxY", sideToJson l.maxY),
    ("minX", sideToJson l.minX), ("minY", sideToJson l.minY)]

end Straightedge
