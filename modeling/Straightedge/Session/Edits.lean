import Straightedge.Session.Basic

/-! # Edits

Plans for the operations that change how figures and axes look.

* **`Session.recolor`**, **`Session.rename`**: of a figure.
* **`Session.setAxisLimits`**: of the chart. -/

namespace Straightedge.Session

variable {α : Type} [Scalar α] [Numeral α]

/-- A figure in another color. -/
def recolor (s : Session α) (element color : String) : Except ConstructionError (Plan α) := do
  if color.isEmpty then throw (.invalidParameter .emptyColor)
  let figure ← s.registry.find element
  return ⟨[.replace element (figure.recolor color)], .name element⟩

/-- A figure under another name, at the end of the registry. -/
def rename (_ : Session α) (old new : String) : Except ConstructionError (Plan α) :=
  return ⟨[.rename old new], .name new⟩

/-- A limit of an axis is finite. -/
def requireLimit (what : String) (x : α) : Except ConstructionError Unit :=
  if Scalar.isFinite x then .ok ()
  else .error (.invalidParameter (.notFinite what (Numeral.plain x)))

/-- Limits of both axes, the lower ones below the upper ones. -/
def setAxisLimits (_ : Session α) (minX maxX minY maxY : α) :
    Except ConstructionError (Plan α) := do
  requireLimit "minX" minX
  requireLimit "maxX" maxX
  requireLimit "minY" minY
  requireLimit "maxY" maxY
  if Scalar.le maxX minX || Scalar.le maxY minY then
    throw (.invalidParameter (.axisOrder (Numeral.plain minX) (Numeral.plain maxX)
      (Numeral.plain minY) (Numeral.plain maxY)))
  return ⟨[.setLimits (.full minX maxX minY maxY)], .done⟩

end Straightedge.Session
