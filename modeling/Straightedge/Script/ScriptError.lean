import Straightedge.ConstructionError
import Straightedge.Script.Malformation
import Straightedge.Script.Verb

/-! # Failures of scripts

* **`Misuse`**: why the arguments of a call do not fit its operation.
* **`Fault`**: what went wrong with a command.
* **`ScriptError`**: a fault on its line.
* **`ScriptError.kind`**, **`ScriptError.message`**: its short name and its wording. -/

namespace Straightedge.Script

/-- Why the arguments of a call do not fit its operation. Positions count from zero. -/
inductive Misuse
  /-- A name given by keyword is not a text. -/
  | nameNotText (key got : String)
  /-- A keyword that no operation knows. -/
  | unknownKeyword (key : String)
  /-- A count of arguments outside the range. -/
  | argumentCount (least most got : Nat)
  /-- No argument stands at a position. -/
  | missing (position : Nat)
  /-- The argument at a position is of the wrong kind. -/
  | wrong (position : Nat) (expected got : String)
  /-- A name is given both by position and by keyword. -/
  | nameTwice
  deriving DecidableEq, Repr

/-- The wording of a misuse. -/
def Misuse.message : Misuse → String
  | nameNotText key got => "`" ++ key ++ "` expects a string, got " ++ got
  | unknownKeyword key => "unknown keyword argument `" ++ key ++ "`"
  | argumentCount least most got =>
    "expected " ++ (if least = most then Nat.repr least
      else Nat.repr least ++ " to " ++ Nat.repr most) ++ " arguments, got " ++ Nat.repr got
  | missing position => "missing argument " ++ Nat.repr (position + 1)
  | wrong position expected got =>
    "argument " ++ Nat.repr (position + 1) ++ ": expected " ++ expected ++ ", got " ++ got
  | nameTwice => "name given both positionally and as keyword"

/-- What went wrong with a script or one of its commands. -/
inductive Fault
  /-- The text is not a script. -/
  | malformed (cause : Malformation)
  /-- A word names no operation. -/
  | unknownVerb (word : String)
  /-- The arguments do not fit the operation. -/
  | misuse (verb : Verb) (cause : Misuse)
  /-- The operation itself failed. -/
  | refused (verb : Verb) (cause : ConstructionError)
  deriving DecidableEq, Repr

namespace Fault

/-- The short name of a fault. -/
def kind : Fault → String
  | malformed _ => "Syntax"
  | unknownVerb _ => "UnknownOp"
  | misuse _ _ => "Usage"
  | refused _ cause => cause.kind

/-- The wording of a fault. -/
def message : Fault → String
  | malformed cause => "syntax error: " ++ cause.message
  | unknownVerb word => "unknown operation `" ++ word ++ "`"
  | misuse verb cause => verb.name ++ ": " ++ cause.message
  | refused verb cause => verb.name ++ ": " ++ cause.message

end Fault

/-- A fault and the line, counted from one, of the command it belongs to. -/
structure ScriptError where
  /-- The line. -/
  line : Nat
  /-- The fault. -/
  fault : Fault
  deriving DecidableEq, Repr

namespace ScriptError

/-- A malformed script as a failure. -/
def ofParseError (e : ParseError) : ScriptError := ⟨e.line, .malformed e.cause⟩

/-- The short name of a failure. -/
def kind (e : ScriptError) : String := e.fault.kind

/-- The wording of a failure. -/
def message (e : ScriptError) : String :=
  "line " ++ Nat.repr e.line ++ ": " ++ e.fault.message

/-- The construction error behind a failure, if the operation itself failed. -/
def refusal? (e : ScriptError) : Option ConstructionError :=
  match e.fault with
  | .refused _ cause => some cause
  | _ => none

end ScriptError

end Straightedge.Script
