import Straightedge.ConstructionError
import Straightedge.Plane.Tolerance
import Straightedge.Plane.Window

/-! # Settings

* **`ErrorPolicy`**: what a failing command does to its script.
* **`Settings`**: the settings of a session, with their standard values.
* **`Settings.validate`**: refuses settings that would give infinite figures or curves without
  bound. -/

namespace Straightedge

/-! ## Policies -/

/-- What a failing command does to its script. -/
inductive ErrorPolicy
  /-- The script ends with the error. -/
  | abort
  /-- The command is left out and reported. -/
  | skip
  deriving DecidableEq, Repr

namespace ErrorPolicy

/-- The word for a policy. -/
def word : ErrorPolicy → String
  | abort => "abort"
  | skip => "skip"

/-- The policy that a word names. -/
def ofWord? (word : String) : Option ErrorPolicy :=
  if word = "abort" then some abort else if word = "skip" then some skip else none

/-- Why a word names no policy. -/
def unknownMessage (word : String) : String :=
  "unknown error policy \"" ++ word ++ "\" (abort|skip)"

@[simp] theorem ofWord?_word (p : ErrorPolicy) : ofWord? p.word = some p := by cases p <;> rfl

end ErrorPolicy

/-! ## Settings -/

/-- The settings of a session. -/
structure Settings (α : Type) where
  /-- Thresholds of the constructions. -/
  tolerance : Tolerance α
  /-- The window of a session without figures, in which infinite lines are clipped. -/
  defaultWindow : Window α
  /-- Room around the figures of a chart. -/
  padding : α
  /-- Segments of a circle or an ellipse. -/
  curveSegments : Nat
  /-- Segments of the arc that marks an angle. -/
  arcSegments : Nat
  /-- Radius of that arc. -/
  arcRadius : α
  /-- Letter size of labels. -/
  labelFontSize : α
  /-- What a failing command does. -/
  onError : ErrorPolicy

namespace Settings

variable {α : Type} [Scalar α]

/-- The settings of a session that asks for no others. -/
def standard : Settings α where
  tolerance := .standard
  defaultWindow := .standard
  padding := Scalar.ofNat 1
  curveSegments := 100
  arcSegments := 20
  arcRadius := Scalar.ofNat 1
  labelFontSize := Scalar.ofNat 14
  onError := .abort

variable [Numeral α]

/-- A count of segments is neither zero nor above the bound on vertices. -/
def requireSegments (what : String) (n : Nat) : Except ConstructionError Unit :=
  if n = 0 ∨ vertexLimit < n then .error (.invalidParameter (.countOutOfRange what n))
  else .ok ()

/-- A size is finite and above zero. -/
def requireSize (what : String) (x : α) : Except ConstructionError Unit :=
  if !Scalar.isFinite x || Scalar.le x Scalar.zero then
    .error (.invalidParameter (.settingNotPositive what (Numeral.plain x)))
  else .ok ()

/-- Whether a padding is finite and not below zero. -/
def validPadding (x : α) : Bool := Scalar.isFinite x && !Scalar.lt x Scalar.zero

/-- Refuses settings that would give infinite figures or curves without bound. -/
def validate (s : Settings α) : Except ConstructionError Unit := do
  requireSegments "curveSegments" s.curveSegments
  requireSegments "arcSegments" s.arcSegments
  requireSize "arcRadius" s.arcRadius
  requireSize "labelFontSize" s.labelFontSize
  if validPadding s.padding then return ()
  else throw (.invalidParameter (.paddingNegative (Numeral.plain s.padding)))

end Settings

end Straightedge
