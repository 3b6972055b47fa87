import Straightedge.Plane.Window
import Straightedge.Text.Blank

/-! # Axis limits

Limits replace some of the four sides of a window.

* **`AxisLimits`**: the sides that are replaced.
* **`AxisLimits.applyTo`**: a window with them replaced.
* **`AxisLimits.parse`**: limits written as four fields between commas. -/

namespace Straightedge

/-- Sides of a window to be replaced; `none` keeps a side. -/
structure AxisLimits (α : Type) where
  /-- Left side. -/
  minX : Option α
  /-- Right side. -/
  maxX : Option α
  /-- Lower side. -/
  minY : Option α
  /-- Upper side. -/
  maxY : Option α

namespace AxisLimits

variable {α : Type}

/-- All four sides replaced. -/
def full (minX maxX minY maxY : α) : AxisLimits α := ⟨some minX, some maxX, some minY, some maxY⟩

/-- Whether no side is replaced. -/
def isEmpty (l : AxisLimits α) : Bool :=
  l.minX.isNone && l.maxX.isNone && l.minY.isNone && l.maxY.isNone

/-- The window with the given sides replaced. -/
def applyTo (l : AxisLimits α) (w : Window α) : Window α where
  minX := l.minX.getD w.minX
  maxX := l.maxX.getD w.maxX
  minY := l.minY.getD w.minY
  maxY := l.maxY.getD w.maxY

/-- The window with the sides of limits, if there are any, replaced. -/
def override (l : Option (AxisLimits α)) (w : Window α) : Window α :=
  match l with
  | some l => l.applyTo w
  | none => w

/-! ## Limits in writing -/

/-- Why a text is no limits. -/
inductive ParseFailure
  /-- Not four fields. -/
  | fieldCount (got : Nat)
  /-- A field that is no number. -/
  | notANumber (field : String)
  /-- A field that is not finite. -/
  | notFinite (field : String)
  /-- An axis whose lower limit is not below its upper limit. -/
  | order (axis : String)
  deriving DecidableEq, Repr

/-- The wording of a failure. -/
def ParseFailure.message : ParseFailure → String
  | fieldCount got => "expected 4 comma-separated values, got " ++ Nat.repr got
  | notANumber field => "not a number: \"" ++ field ++ "\""
  | notFinite field => "not a finite number: \"" ++ field ++ "\""
  | order axis => axis ++ " minimum must be below its maximum"

/-- The fields between commas. -/
def splitCommas : List Char → List (List Char)
  | [] => [[]]
  | c :: cs =>
    if c = ',' then [] :: splitCommas cs
    else
      match splitCommas cs with
      | [] => [[c]]
      | field :: fields => (c :: field) :: fields

variable [Scalar α] [Numeral α]

/-- The limit in a field; an empty field is none. -/
def parseField (field : List Char) : Except ParseFailure (Option α) :=
  if field.isEmpty then .ok none
  else
    match Numeral.read? field with
    | none => .error (.notANumber (String.ofList field))
    | some x =>
      if Scalar.isFinite x then .ok (some x) else .error (.notFinite (String.ofList field))

/-- A lower limit lies below the upper limit, if both are given. -/
def requireOrder (axis : String) : Option α → Option α → Except ParseFailure Unit
  | some low, some high => if Scalar.le high low then .error (.order axis) else .ok ()
  | _, _ => .ok ()

/-- The limits in four fields between commas, in the order left, right, lower, upper. -/
def parse (text : List Char) : Except ParseFailure (AxisLimits α) := do
  let fields := (splitCommas text).map Text.trimBlanks
  match fields with
  | [f₁, f₂, f₃, f₄] =>
    let minX ← parseField f₁
    let maxX ← parseField f₂
    let minY ← parseField f₃
    let maxY ← parseField f₄
    requireOrder "x" minX maxX
    requireOrder "y" minY maxY
    return ⟨minX, maxX, minY, maxY⟩
  | _ => throw (.fieldCount fields.length)

end AxisLimits

end Straightedge
