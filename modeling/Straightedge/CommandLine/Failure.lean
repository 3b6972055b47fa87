import Straightedge.Script.ScriptError

/-! # Failures of a command

* **`Failure`**: what went wrong, by what was being done.
* **`Failure.message`**, **`Failure.causes`**: what was being done, and why it failed.
* **`Failure.report`**: the text that tells the user. -/

namespace Straightedge.CommandLine

/-- What went wrong with a command. Causes that come from outside are texts. -/
inductive Failure
  /-- The script cannot be read. -/
  | unreadableScript (path cause : String)
  /-- The standard input cannot be read. -/
  | unreadableInput (cause : String)
  /-- The settings cannot be read. -/
  | unreadableSettings (path cause : String)
  /-- The settings are not settings. -/
  | malformedSettings (path : String)
  /-- The settings have values that are not allowed. -/
  | invalidSettings (path : String) (cause : ConstructionError)
  /-- The padding is not allowed; it is given as it is shown. -/
  | invalidPadding (shown : String)
  /-- The script failed. -/
  | failedRun (path : String) (cause : Script.ScriptError)
  /-- The script was found faulty. -/
  | failedCheck (path : String) (cause : Script.ScriptError)
  /-- The directory for the chart cannot be made. -/
  | noDirectory (cause : String)
  /-- A file cannot be written. -/
  | unwritable (path cause : String)

namespace Failure

/-- The error of a script and, if an operation failed, the error of the operation. -/
def scriptCauses (e : Script.ScriptError) : List String :=
  e.message :: (e.refusal?.map ConstructionError.message).toList

/-- What was being done. -/
def message : Failure → String
  | unreadableScript path _ => "reading script " ++ path
  | unreadableInput _ => "reading script from stdin"
  | unreadableSettings path _ => "reading config " ++ path
  | malformedSettings path => "parsing config " ++ path
  | invalidSettings path _ => "invalid config " ++ path
  | invalidPadding shown => "--padding must be a non-negative number, got " ++ shown
  | failedRun path _ => "evaluating " ++ path
  | failedCheck path _ => "checking " ++ path
  | noDirectory cause => cause
  | unwritable path _ => "writing " ++ path

/-- Why it failed, the nearest cause first. -/
def causes : Failure → List String
  | unreadableScript _ cause => [cause]
  | unreadableInput cause => [cause]
  | unreadableSettings _ cause => [cause]
  | malformedSettings _ => ["not a settings file"]
  | invalidSettings _ cause => [cause.message]
  | invalidPadding _ => []
  | failedRun _ cause => scriptCauses cause
  | failedCheck _ cause => scriptCauses cause
  | noDirectory _ => []
  | unwritable _ cause => [cause]

/-- A text with blanks in front of every line but the first. -/
def indentLines (blanks : String) (text : String) : String :=
  String.ofList (text.toList.flatMap fun c => if c = '\n' then '\n' :: blanks.toList else [c])

/-- A cause on a line of its own. -/
def plainCause (cause : String) : String := "\n    " ++ indentLines "    " cause

/-- The number of a cause, at the right of five columns. -/
def causeNumber (i : Nat) : String :=
  let digits := Nat.toDigits 10 i
  String.ofList (List.replicate (5 - digits.length) ' ' ++ digits)

/-- A numbered cause on a line of its own. -/
def numberedCause (cause : String) (i : Nat) : String :=
  "\n" ++ causeNumber i ++ ": " ++ indentLines "       " cause

/-- The causes below a message; several are numbered from zero. -/
def causesText : List String → String
  | [] => ""
  | [cause] => "\n\nCaused by:" ++ plainCause cause
  | causes => "\n\nCaused by:" ++ String.join (causes.mapIdx fun i cause => numberedCause cause i)

/-- The text that tells the user. -/
def report (f : Failure) : String := "Error: " ++ f.message ++ causesText f.causes ++ "\n"

end Failure

end Straightedge.CommandLine
