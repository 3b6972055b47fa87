import Straightedge.AxisLimits
import Straightedge.Registry.FreshName
import Straightedge.Registry.Resolve
import Straightedge.Settings

/-! # Sessions

A session is the state of one evaluation: the named figures, the title, the limits of the axes and
whether they are shown. An operation is first planned on the session, which stays as it is; then the
changes of the plan are made one after another.

* **`Session`**: the state.
* **`Value`**: what an operation gives back.
* **`Change`**, **`Plan`**: what an operation is about to do.
* **`Construct`**: computations that change a session; an error keeps the changes made before it.
* **`Session.carryOut`**: makes the changes of a plan. -/

namespace Straightedge

variable {α : Type}

/-! ## Sessions -/

/-- The state of one evaluation. -/
structure Session (α : Type) where
  /-- The settings. -/
  settings : Settings α
  /-- The named figures. -/
  registry : Registry α
  /-- The title of the chart; empty for none. -/
  title : String
  /-- Limits of the axes set by the session. -/
  ownLimits : Option (AxisLimits α)
  /-- Whether the axes are shown. -/
  axesVisible : Bool

namespace Session

/-- A session without figures. -/
def new (settings : Settings α) : Session α where
  settings := settings
  registry := .empty
  title := ""
  ownLimits := none
  axesVisible := true

/-- The session as it was when new; its settings stay. -/
def reset (s : Session α) : Session α := new s.settings

/-- The window in which lines are clipped: the default window with the session's limits. -/
def currentWindow (s : Session α) : Window α :=
  AxisLimits.override s.ownLimits s.settings.defaultWindow

end Session

/-! ## Values -/

/-- What an operation gives back. -/
inductive Value (α : Type)
  /-- The name of the figure it made or changed. -/
  | name (name : String)
  /-- A measured number. -/
  | number (value : α)
  /-- A measured angle in degrees, and the text that shows it. -/
  | angle (degrees : α) (shown : String)
  /-- Nothing. -/
  | done

/-- A value as users see it. -/
def Value.text [Scalar α] [Numeral α] : Value α → String
  | .name n => n
  | .number x => Numeral.shown x
  | .angle _ shown => shown
  | .done => "()"

/-! ## Plans -/

/-- A change of a session. -/
inductive Change (α : Type)
  /-- A new figure. -/
  | add (name : String) (figure : Figure α)
  /-- Another figure under the same name. -/
  | replace (name : String) (figure : Figure α)
  /-- Another name for a figure. -/
  | rename (old new : String)
  /-- Another title. -/
  | setTitle (title : String)
  /-- Other limits of the axes. -/
  | setLimits (limits : AxisLimits α)
  /-- The axes shown or hidden. -/
  | showAxes (visible : Bool)

/-- The changes an operation is about to make, in order, and the value it will give back. -/
structure Plan (α : Type) where
  /-- The changes. -/
  changes : List (Change α)
  /-- The value. -/
  value : Value α

/-- The plan to add one figure and give back its name. -/
def Plan.addOne (name : String) (figure : Figure α) : Plan α := ⟨[.add name figure], .name name⟩

/-! ## Carrying out -/

/-- Computations that change a session and may fail; a failure keeps the changes made before it. -/
abbrev Construct (α β : Type) : Type := ExceptT ConstructionError (StateM (Session α)) β

namespace Session

/-- The session after a change. -/
def change (s : Session α) : Change α → Except ConstructionError (Session α)
  | .add name figure => do return { s with registry := ← s.registry.insert name figure }
  | .replace name figure => do
    return { s with registry := ← s.registry.update name fun _ => figure }
  | .rename old new => do return { s with registry := ← s.registry.rename old new }
  | .setTitle title => return { s with title := title }
  | .setLimits limits => return { s with ownLimits := some limits }
  | .showAxes visible => return { s with axesVisible := visible }

/-- Makes one change. -/
def make (c : Change α) : Construct α Unit := do
  match (← get).change c with
  | .ok s => set s
  | .error e => throw e

/-- Makes the changes of a plan one after another. -/
def carryOut (plan : Plan α) : Construct α (Value α) := do
  plan.changes.forM make
  return plan.value

/-- The name for a new figure: the wanted one, which has to be free, or a stem with a number. -/
def nameFor (s : Session α) (wanted : Option String) (stem : String) :
    Except ConstructionError String := do
  match wanted with
  | some name =>
    s.registry.requireFree name
    return name
  | none => return s.registry.freshName stem

end Session

end Straightedge
