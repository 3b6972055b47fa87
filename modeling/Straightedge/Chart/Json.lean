import Straightedge.Chart.Basic
import Straightedge.Json.Value

/-! # Charts as data

The JSON form of a chart. Fields stand in a fixed order; absent ones are left out.

* **`Series.toJson`**, **`Chart.toJson`**: the JSON forms. -/

namespace Straightedge

variable {α : Type}

/-- The field of an object for an optional value: none if it is absent. -/
def Json.fieldIfSome {β : Type} (key : String) (f : β → Json α) :
    Option β → List (String × Json α)
  | some b => [(key, f b)]
  | none => []

/-- The JSON form of a position: a list of two numbers. -/
def Coord.toJson (p : Coord α) : Json α := .list [.number p.x, .number p.y]

/-- The JSON form of a style. -/
def SeriesStyle.toJson (s : SeriesStyle α) : Json α :=
  .object <|
    ("color", .text s.color)
      :: Json.fieldIfSome "width" .number s.width
      ++ Json.fieldIfSome "lineStyle" (fun p => .text p.word) s.pattern
      ++ Json.fieldIfSome "fill" .text s.fill
      ++ Json.fieldIfSome "symbolSize" .number s.symbolSize
      ++ Json.fieldIfSome "fontSize" .number s.fontSize
      ++ Json.fieldIfSome "background" .text s.background
      ++ Json.fieldIfSome "label" .text s.label

/-- The JSON form of a series. -/
def Series.toJson (s : Series α) : Json α :=
  .object <|
    [("name", .text s.name),
      ("kind", .text s.kind.word),
      ("data", .list (s.data.map Coord.toJson)),
      ("style", s.style.toJson)]
      ++ Json.fieldIfSome "tooltip" .text s.tooltip

/-- The JSON form of an axis. -/
def Axis.toJson (a : Axis α) : Json α :=
  .object [("min", .number a.min), ("max", .number a.max), ("show", .bool a.visible)]

/-- The JSON form of a chart. -/
def Chart.toJson (c : Chart α) : Json α :=
  .object <|
    Json.fieldIfSome "title" .text c.title
      ++ [("xAxis", c.xAxis.toJson),
        ("yAxis", c.yAxis.toJson),
        ("series", .list (c.series.map Series.toJson))]

end Straightedge
