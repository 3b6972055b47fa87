import Straightedge.Chart.Json
import Straightedge.CommandLine.Failure
import Straightedge.CommandLine.Provenance
import Straightedge.CommandLine.Request
import Straightedge.Script.Evaluation
import Straightedge.Settings.Reader

/-! # Carrying out requests

Commands act on the outside world through a `Host` only, so they run as well on files in memory as on
those of a machine.

* **`Host`**: files, standard streams and the revision of the program.
* **`effectiveSettings`**: the settings that the options of a run call for.
* **`execute`**: carries a request out.
* **`answer`**: carries the words of a command line out and gives the exit code. -/

namespace Straightedge.CommandLine

/-! ## The outside world -/

/-- What a command needs of the world outside; a failure is described in words. -/
structure Host (m : Type → Type) where
  /-- The text of a file. -/
  load : (path : String) → m (Except String String)
  /-- The text of the standard input. -/
  input : m (Except String String)
  /-- Makes a directory and those it lies in, unless they exist. -/
  ensureDirectory : (path : String) → m (Except String Unit)
  /-- Writes a file. -/
  save : (path content : String) → m (Except String Unit)
  /-- Appends to the standard output. -/
  print : (content : String) → m Unit
  /-- Appends to the standard error stream. -/
  complain : (content : String) → m Unit
  /-- The revision of the program. -/
  revision : m String

/-- What a command does; it may fail. -/
abbrev Action (m : Type → Type) : Type → Type := ExceptT Failure m

section

variable {m : Type → Type} [Monad m]

/-- An action of the host as part of a command, with a failure to give its words a meaning. -/
def perform {β : Type} (action : m (Except String β)) (failure : String → Failure) : Action m β :=
  ExceptT.mk do return (← action).mapError failure

/-- The text of a script. -/
def readScript (host : Host m) (path : String) : Action m String :=
  if path = "-" then perform host.input .unreadableInput
  else perform (host.load path) (.unreadableScript path)

end

/-! ## Settings -/

variable {α : Type} [Scalar α] [Numeral α]

/-- The settings in the text of a file. -/
def readSettings (path source : String) : Except Failure (Settings α) :=
  match Settings.read? source with
  | none => .error (.malformedSettings path)
  | some (s : Settings α) =>
    match s.validate with
    | .ok () => .ok s
    | .error e => .error (.invalidSettings path e)

/-- Settings with the padding of the command line, if it has one. -/
def setPadding (s : Settings α) : Option α → Except Failure (Settings α)
  | some x =>
    if Settings.validPadding x then .ok { s with padding := x }
    else .error (.invalidPadding (Numeral.plain x))
  | none => .ok s

/-- The settings that the options of a run call for: those of its file or the standard ones, with
the policy and the padding of the command line. The file is given by its path and text. -/
def effectiveSettings (options : RunOptions α) (file : Option (String × String)) :
    Except Failure (Settings α) := do
  let s : Settings α ←
    match file with
    | some (path, source) => readSettings path source
    | none => .ok .standard
  setPadding { s with onError := options.onError.getD s.onError } options.padding

/-! ## Requests -/

/-- A line that reports a command left out. -/
def skippedLine (e : Script.ScriptError) : String := "skipped " ++ e.message ++ "\n"

/-- The text of a chart. -/
def chartText (pretty : Bool) (c : Chart α) : String :=
  if pretty then c.toJson.pretty else c.toJson.compact

/-- A line of the list of operations, with the usage in the sixteenth column. -/
def operationLine (v : Script.Verb) : String :=
  let blanks := String.ofList (List.replicate (14 - v.name.length) ' ')
  let also := if v.aliases.isEmpty then ""
    else "  (also: " ++ String.intercalate ", " v.aliases ++ ")"
  v.name ++ blanks ++ " " ++ v.usage ++ also ++ "\n"

section

variable {m : Type → Type} [Monad m]

/-- Writes a chart to a file, and a sidecar beside it if one is wanted. -/
def writeChart (host : Host m) (content : String) (path : String)
    (sidecar : Option (String → Provenance α)) : Action m Unit := do
  if let some directory := Path.directory? path then
    perform (host.ensureDirectory directory) .noDirectory
  perform (host.save path content) (.unwritable path)
  if let some provenance := sidecar then
    let p := provenance (← host.revision)
    let place := Provenance.sidecar path
    perform (host.save place p.toJson.pretty) (.unwritable place)

/-- Runs a script and writes its chart. -/
def runScript (host : Host m) (script : String) (options : RunOptions α) : Action m Unit := do
  let file ← options.settings.mapM fun path => do
    return (path, ← perform (host.load path) (.unreadableSettings path))
  let settings ← ExceptT.mk (pure (effectiveSettings options file))
  let source ← readScript host script
  let (result, _) := (Session.new settings).evaluate source options.limits
  let evaluation ← ExceptT.mk (pure (result.mapError (.failedRun script)))
  for e in evaluation.diagnostics do
    host.complain (skippedLine e)
  let content := chartText options.pretty evaluation.chart
  match options.output with
  | none => host.print (content ++ "\n")
  | some path =>
    let provenance (revision : String) : Provenance α :=
      { revision, script, settings, limits := options.limits,
        diagnostics := evaluation.diagnostics, output := path }
    writeChart host content path (if options.provenance then some provenance else none)

/-- Reads a script without running it and reports how many commands it has. -/
def checkScript (α : Type) [Scalar α] [Numeral α] (host : Host m) (script : String) :
    Action m Unit := do
  let source ← readScript host script
  let checked : Except Script.ScriptError (List (Script.ResolvedCommand α)) := Script.check source
  let commands ← ExceptT.mk (pure (checked.mapError (.failedCheck script)))
  host.print (script ++ ": " ++ Nat.repr commands.length ++ " commands ok\n")

/-- Carries a request out. -/
def execute (host : Host m) : Request α → Action m Unit
  | .run script options => runScript host script options
  | .check script => checkScript α host script
  | .listOperations => host.print (String.join (Script.Verb.all.map operationLine))

/-- Carries the words of a command line out. The exit code is 0, or 1 after a failure, or 2 if the
command line is rejected. -/
def answer (α : Type) [Scalar α] [Numeral α] (host : Host m) (words : List String) : m UInt32 := do
  match (Request.ofWords words : Except Rejection (Request α)) with
  | .error rejection =>
    host.complain ("error: " ++ rejection.message ++ "\n")
    return 2
  | .ok request =>
    match ← (execute host request).run with
    | .ok () => return 0
    | .error failure =>
      host.complain failure.report
      return 1

end

end Straightedge.CommandLine
