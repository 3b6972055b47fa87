import Straightedge.AxisLimits
import Straightedge.CommandLine.Arguments
import Straightedge.Settings

/-! # Requests

What a command line asks for.

* **`RunOptions`**: how a script is run.
* **`Request`**: run a script, check one, or list the operations.
* **`Request.ofWords`**: the request that the words of a command line make. -/

namespace Straightedge.CommandLine

/-- How a script is run. -/
structure RunOptions (α : Type) where
  /-- File for the chart; none for the standard output. -/
  output : Option String
  /-- Whether the chart is written with one item per line. -/
  pretty : Bool
  /-- What a failing command does, if not what the settings say. -/
  onError : Option ErrorPolicy
  /-- Axis limits. -/
  limits : Option (AxisLimits α)
  /-- Room around the figures, if not what the settings say. -/
  padding : Option α
  /-- File with settings. -/
  settings : Option String
  /-- Whether a sidecar is written beside the chart. -/
  provenance : Bool

/-- What a command line asks for. A script is a file, or a dash for the standard input. -/
inductive Request (α : Type)
  /-- Run a script and write its chart. -/
  | run (script : String) (options : RunOptions α)
  /-- Read a script without running it. -/
  | check (script : String)
  /-- List the operations. -/
  | listOperations

namespace RunOptions

/-- The options of a run. -/
def rules : List OptionRule := [
  ⟨"out", .value false⟩, ⟨"pretty", .flag⟩, ⟨"on-error", .value false⟩, ⟨"limits", .value true⟩,
  ⟨"padding", .value false⟩, ⟨"config", .value false⟩, ⟨"no-provenance", .flag⟩]

/-- A path is not empty. -/
def readPath (text : String) : Except String String :=
  if text.isEmpty then .error "a path is needed" else .ok text

/-- A policy by its word. -/
def readPolicy (text : String) : Except String ErrorPolicy :=
  match ErrorPolicy.ofWord? text with
  | some p => .ok p
  | none => .error (ErrorPolicy.unknownMessage text)

variable {α : Type} [Scalar α] [Numeral α]

/-- Axis limits in writing. -/
def readLimits (text : String) : Except String (AxisLimits α) :=
  (AxisLimits.parse text.toList).mapError AxisLimits.ParseFailure.message

/-- A number in writing. -/
def readNumber (text : String) : Except String α :=
  match Numeral.read? text.toList with
  | some x => .ok x
  | none => .error ("not a number: \"" ++ text ++ "\"")

/-- The options of a run among the words of its command line. -/
def ofArguments (a : Arguments) : Except Rejection (RunOptions α) := do
  return {
    output := ← a.readValue "out" readPath
    pretty := a.has "pretty"
    onError := ← a.readValue "on-error" readPolicy
    limits := ← a.readValue "limits" readLimits
    padding := ← a.readValue "padding" readNumber
    settings := ← a.readValue "config" readPath
    provenance := !a.has "no-provenance" }

end RunOptions

/-- The request that the words of a command line make. -/
def Request.ofWords {α : Type} [Scalar α] [Numeral α] :
    List String → Except Rejection (Request α)
  | [] => .error .missingCommand
  | command :: words =>
    match command with
    | "run" => do
      let a ← Arguments.read RunOptions.rules words
      return .run (← a.operand "the script") (← RunOptions.ofArguments a)
    | "check" => do
      let a ← Arguments.read [] words
      return .check (← a.operand "the script")
    | "ops" => do
      let a ← Arguments.read [] words
      match a.operands with
      | [] => return .listOperations
      | word :: _ => throw (.needlessOperand word)
    | other => .error (.unknownCommand other)

end Straightedge.CommandLine
