import Straightedge.Chart.Layout
import Straightedge.Chart.Series
import Straightedge.Session.Basic

/-! # Charts

* **`Axis`**, **`Chart`**: what a plotting program is told.
* **`Session.render`**: the chart of a session; rendering only reads. -/

namespace Straightedge

/-- An axis. -/
structure Axis (α : Type) where
  /-- Lower limit. -/
  min : α
  /-- Upper limit. -/
  max : α
  /-- Whether it is shown. -/
  visible : Bool

/-- A chart. -/
structure Chart (α : Type) where
  /-- Title, if it has one. -/
  title : Option String
  /-- Horizontal axis. -/
  xAxis : Axis α
  /-- Vertical axis. -/
  yAxis : Axis α
  /-- One series per figure, in order. -/
  series : List (Series α)

namespace Session

variable {α : Type} [Scalar α] [Numeral α]

/-- The window of the session's chart under the limits of a call. -/
def chartWindow (s : Session α) (limits : Option (AxisLimits α)) : Window α :=
  s.registry.chartWindow s.settings.padding s.settings.defaultWindow limits s.ownLimits

/-- The chart of a session. Limits of the call win over the computed window, limits of the session
over both. -/
def render (s : Session α) (limits : Option (AxisLimits α)) : Chart α :=
  let w := s.chartWindow limits
  { title := if s.title.isEmpty then none else some s.title
    xAxis := ⟨w.minX, w.maxX, s.axesVisible⟩
    yAxis := ⟨w.minY, w.maxY, s.axesVisible⟩
    series := s.registry.toList.map fun entry => Series.ofFigure entry.1 entry.2 }

end Session

end Straightedge
