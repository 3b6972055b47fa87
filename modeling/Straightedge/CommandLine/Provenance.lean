import Straightedge.CommandLine.Path
import Straightedge.Script.ScriptError
import Straightedge.Settings.Json

/-! # Provenance

A sidecar beside a chart tells how the chart was made.

* **`Provenance`**: what it tells.
* **`Provenance.toJson`**: its JSON form, with fields in alphabetical order.
* **`Provenance.sidecar`**: where it is written. -/

namespace Straightedge.CommandLine

/-- The version of the program. -/
def version : String := "0.1.0"

/-- How a chart was made. -/
structure Provenance (α : Type) where
  /-- Revision of the program. -/
  revision : String
  /-- The script. -/
  script : String
  /-- The settings in force. -/
  settings : Settings α
  /-- The axis limits of the command line. -/
  limits : Option (AxisLimits α)
  /-- Errors of the commands left out. -/
  diagnostics : List Script.ScriptError
  /-- The file with the chart. -/
  output : String

namespace Provenance

variable {α : Type}

/-- The JSON form of the error of a command left out. -/
def diagnosticToJson (e : Script.ScriptError) : Json α :=
  .object [("kind", .text e.kind), ("line", .count e.line), ("message", .text e.message)]

/-- The JSON form of a provenance. -/
def toJson (p : Provenance α) : Json α :=
  .object [
    ("code_rev", .text p.revision),
    ("diagnostics", .list (p.diagnostics.map diagnosticToJson)),
    ("inputs", .list [.text p.script]),
    ("outputs", .list [.text p.output]),
    ("params", .object [
      ("limits", (p.limits.map AxisLimits.toJson).getD .null),
      ("session", p.settings.toJson)]),
    ("version", .text version)]

/-- Where the sidecar of a chart is written: beside it, under its name without extension. -/
def sidecar (output : String) : String :=
  Path.sibling output
    (((Path.fileName? output).map Path.stem).getD "chart" ++ ".provenance.json")

end Provenance

end Straightedge.CommandLine
