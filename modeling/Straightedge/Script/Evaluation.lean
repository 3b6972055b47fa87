import Straightedge.Chart.Basic
import Straightedge.Script.Call
import Straightedge.Script.Parser

/-! # Running scripts

A script is read as a whole and all its operations are looked up before the first one runs. Then its
commands run one after another on a session; a failing one ends the script or is left out, as the
session's settings say.

* **`check`**: the commands of a script with their operations.
* **`attempt`**: runs one command.
* **`run`**: runs commands one after another.
* **`Session.evaluate`**: resets a session, runs a script on it and renders the result. -/

namespace Straightedge

namespace Script

variable {α : Type}

/-! ## Checking -/

/-- A command with its operation. -/
structure ResolvedCommand (α : Type) where
  /-- The command. -/
  command : Command α
  /-- Its operation. -/
  verb : Verb

/-- Looks the operation of a command up. -/
def resolve (c : Command α) : Except ScriptError (ResolvedCommand α) :=
  match Verb.lookup? c.verb with
  | some verb => .ok ⟨c, verb⟩
  | none => .error ⟨c.line, .unknownVerb c.verb⟩

variable [Scalar α] [Numeral α]

/-- Reads a script and looks its operations up; nothing runs. -/
def check (source : String) : Except ScriptError (List (ResolvedCommand α)) := do
  match parse source with
  | .ok commands => commands.mapM resolve
  | .error e => throw (.ofParseError e)

/-! ## Running -/

/-- Runs one command: its answer, and the session afterwards. -/
def attempt (s : Session α) (bindings : Bindings α) (c : ResolvedCommand α) :
    Except ScriptError (Value α) × Session α :=
  match Call.ofCommand bindings c.command >>= fun call => call.operation s.registry c.verb with
  | .error misuse => (.error ⟨c.command.line, .misuse c.verb misuse⟩, s)
  | .ok op =>
    match s.perform op with
    | (.ok value, s') => (.ok value, s')
    | (.error e, s') => (.error ⟨c.command.line, .refused c.verb e⟩, s')

/-- The bindings after a command has given a value. -/
def bindResult (bindings : Bindings α) (c : Command α) (value : Value α) : Bindings α :=
  match c.binding with
  | some word => (word, value) :: bindings
  | none => bindings

/-- What a command gave. -/
structure Outcome (α : Type) where
  /-- Line of the command. -/
  line : Nat
  /-- Its operation. -/
  verb : Verb
  /-- Its value. -/
  value : Value α

/-- What running commands did. -/
structure Run (α : Type) where
  /-- The session afterwards. -/
  session : Session α
  /-- What the successful commands gave, in order. -/
  outcomes : List (Outcome α)
  /-- The errors of the commands left out, in order. -/
  diagnostics : List ScriptError
  /-- The error that ended the run early, if one did. -/
  failure : Option ScriptError

/-- Runs commands one after another. -/
def run (s : Session α) (bindings : Bindings α) : List (ResolvedCommand α) → Run α
  | [] => ⟨s, [], [], none⟩
  | c :: cs =>
    match attempt s bindings c with
    | (.ok value, s') =>
      let rest := run s' (bindResult bindings c.command value) cs
      { rest with outcomes := ⟨c.command.line, c.verb, value⟩ :: rest.outcomes }
    | (.error e, s') =>
      match s.settings.onError with
      | .abort => ⟨s', [], [], some e⟩
      | .skip =>
        let rest := run s' bindings cs
        { rest with diagnostics := e :: rest.diagnostics }

/-- What an evaluation gave. -/
structure Evaluation (α : Type) where
  /-- The chart. -/
  chart : Chart α
  /-- What the successful commands gave, in order. -/
  outcomes : List (Outcome α)
  /-- The errors of the commands left out, in order. -/
  diagnostics : List ScriptError

end Script

/-- Resets a session, runs a script on it and renders the result under the limits of the call: the
evaluation or the error that ended it, and the session afterwards. -/
def Session.evaluate {α : Type} [Scalar α] [Numeral α] (s : Session α) (source : String)
    (limits : Option (AxisLimits α)) :
    Except Script.ScriptError (Script.Evaluation α) × Session α :=
  match Script.check source with
  | .error e => (.error e, s.reset)
  | .ok commands =>
    let r := Script.run s.reset [] commands
    match r.failure with
    | some e => (.error e, r.session)
    | none => (.ok ⟨r.session.render limits, r.outcomes, r.diagnostics⟩, r.session)

end Straightedge
