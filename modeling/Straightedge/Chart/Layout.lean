import Straightedge.AxisLimits
import Straightedge.Registry.Basic

/-! # The window of a chart

The window that shows all figures with some room around them, its axes made equally long; then two
layers of limits, the later one winning.

* **`Registry.fittedWindow`**: the padded window around all figures.
* **`Registry.chartWindow`**: the window of a chart. -/

namespace Straightedge.Registry

variable {α : Type} [Scalar α]

/-- The window around all figures with `padding` on every side; without figures, `fallback`. -/
def fittedWindow (r : Registry α) (padding : α) (fallback : Window α) : Window α :=
  match Window.bounding? r.coords with
  | some w => w.pad padding
  | none => fallback

/-- The window of a chart: all figures with padding, equally long axes, then the limits of the call
and over them those of the session. -/
def chartWindow (r : Registry α) (padding : α) (fallback : Window α)
    (call session : Option (AxisLimits α)) : Window α :=
  AxisLimits.override session (AxisLimits.override call (r.fittedWindow padding fallback).squared)

@[simp] theorem fittedWindow_empty (padding : α) (fallback : Window α) :
    (empty : Registry α).fittedWindow padding fallback = fallback := rfl

end Straightedge.Registry
