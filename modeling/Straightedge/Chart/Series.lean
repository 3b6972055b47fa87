import Straightedge.Figure.Basic

/-! # Series of a chart

A chart shows every figure as one series of positions.

* **`SeriesKind`**, **`SeriesStyle`**: how a series is drawn.
* **`Series`**: a named series.
* **`Series.ofFigure`**: the series of a figure. -/

namespace Straightedge

/-- How the positions of a series are drawn. -/
inductive SeriesKind
  /-- A mark at each position. -/
  | point
  /-- Lines from each position to the next. -/
  | line
  /-- Lines around a filled area. -/
  | filledLine
  /-- A text at each position. -/
  | text
  deriving DecidableEq, Repr

/-- The word for a kind. -/
def SeriesKind.word : SeriesKind → String
  | point => "point"
  | line => "line"
  | filledLine => "filledLine"
  | text => "text"

/-- The look of a series; what a kind does not use is absent. -/
structure SeriesStyle (α : Type) where
  /-- Color. -/
  color : String
  /-- Width of lines. -/
  width : Option α
  /-- Dashes of lines. -/
  pattern : Option Pattern
  /-- Color of the area. -/
  fill : Option String
  /-- Size of marks. -/
  symbolSize : Option α
  /-- Size of letters. -/
  fontSize : Option α
  /-- Color behind a text. -/
  background : Option String
  /-- What is written. -/
  label : Option String

/-- A style with a color only. -/
def SeriesStyle.colored {α : Type} (color : String) : SeriesStyle α :=
  ⟨color, none, none, none, none, none, none, none⟩

/-- A figure as a chart shows it. -/
structure Series (α : Type) where
  /-- Name of the figure. -/
  name : String
  /-- How it is drawn. -/
  kind : SeriesKind
  /-- Its positions. -/
  data : List (Coord α)
  /-- Its look. -/
  style : SeriesStyle α
  /-- Text shown beside it. -/
  tooltip : Option String

namespace Series

variable {α : Type} [Scalar α] [Numeral α]

/-- Color inside a closed curve without a color of its own. -/
def defaultFill : String := "rgba(0,170,0,0.3)"

/-- The series of a point: a mark with its name. -/
def ofMarker (name : String) (m : Marker α) : Series α where
  name := name
  kind := .point
  data := [m.coord]
  style := { SeriesStyle.colored m.color with
    symbolSize := some (Scalar.ofNat 7)
    label := some name }
  tooltip := some (Tooltip.write name [m.coord.text])

/-- The series of a curve. -/
def ofCurve (name : String) (c : Curve α) : Series α where
  name := name
  kind := if c.closed then .filledLine else .line
  data := c.vertices
  style := { SeriesStyle.colored c.stroke.color with
    width := some c.stroke.width
    pattern := some c.stroke.pattern
    fill := if c.closed then some (c.fill.getD defaultFill) else none }
  tooltip := some (c.tooltip.getD name)

/-- The series of a label: its text without a mark. -/
def ofLabel (name : String) (l : Label α) : Series α where
  name := name
  kind := .text
  data := [l.coord]
  style := { SeriesStyle.colored l.color with
    symbolSize := some Scalar.zero
    fontSize := some l.fontSize
    background := l.background
    label := some l.content }
  tooltip := none

/-- The series of a figure. -/
def ofFigure (name : String) : Figure α → Series α
  | .point m => ofMarker name m
  | .curve c => ofCurve name c
  | .label l => ofLabel name l

/-- Whether a series is drawn with dashes. -/
def isDashed (s : Series α) : Bool := s.style.pattern = some .dashed

/-- A series holds the positions of its figure. -/
theorem data_ofFigure (name : String) (figure : Figure α) :
    (ofFigure name figure).data = figure.coords := by
  cases figure <;> rfl

/-- A series has the name of its figure. -/
@[simp] theorem name_ofFigure (name : String) (figure : Figure α) :
    (ofFigure name figure).name = name := by
  cases figure <;> rfl

end Series

end Straightedge
