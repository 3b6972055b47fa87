/-! # Arguments

The words of a command line are operands, and options with or without a value.

* **`OptionRule`**: an option of a command.
* **`Rejection`**: why a command line is rejected.
* **`Arguments.scan`**: sorts words into options and operands. -/

namespace Straightedge.CommandLine

/-! ## Options -/

/-- What follows an option. -/
inductive OptionShape
  /-- Nothing. -/
  | flag
  /-- A value, which may start with a dash only if `dashes`. -/
  | value (dashes : Bool)
  deriving DecidableEq, Repr

/-- An option of a command. -/
structure OptionRule where
  /-- Its name, without the dashes in front. -/
  name : String
  /-- What follows it. -/
  shape : OptionShape
  deriving DecidableEq, Repr

/-! ## Rejections -/

/-- Why a command line is rejected. -/
inductive Rejection
  /-- No command. -/
  | missingCommand
  /-- A word that is no command. -/
  | unknownCommand (word : String)
  /-- A word that looks like an option but is none of the command. -/
  | unknownOption (word : String)
  /-- An option without its value. -/
  | missingValue (name : String)
  /-- A value for an option that has none. -/
  | needlessValue (name : String)
  /-- An option given twice. -/
  | repeated (name : String)
  /-- A value that the option cannot have. -/
  | badValue (name reason : String)
  /-- No operand where one is needed. -/
  | missingOperand (what : String)
  /-- An operand too many. -/
  | needlessOperand (word : String)
  deriving DecidableEq, Repr

/-- The wording of a rejection. -/
def Rejection.message : Rejection → String
  | missingCommand => "a command is needed: run, check or ops"
  | unknownCommand word => "unknown command \"" ++ word ++ "\""
  | unknownOption word => "unknown option \"" ++ word ++ "\""
  | missingValue name => "--" ++ name ++ " needs a value"
  | needlessValue name => "--" ++ name ++ " takes no value"
  | repeated name => "--" ++ name ++ " is given twice"
  | badValue name reason => "--" ++ name ++ ": " ++ reason
  | missingOperand what => what ++ " is missing"
  | needlessOperand word => "unexpected argument \"" ++ word ++ "\""

/-! ## Sorting words -/

/-- The words of a command line, sorted. -/
structure Arguments where
  /-- The options by name, each with its value; a flag has none. -/
  options : List (String × String)
  /-- The other words. -/
  operands : List String

namespace Arguments

/-- No words. -/
def empty : Arguments := ⟨[], []⟩

/-- One option more, in front. -/
def addOption (name value : String) (a : Arguments) : Arguments :=
  { a with options := (name, value) :: a.options }

/-- One operand more, in front. -/
def addOperand (word : String) (a : Arguments) : Arguments :=
  { a with operands := word :: a.operands }

/-- Whether a word starts with a dash and is more than the dash. -/
def isDashed : List Char → Bool
  | '-' :: _ :: _ => true
  | _ => false

/-- The name of an option in a word after its dashes, and the value attached to it. -/
def splitAttached (cs : List Char) : String × Option String :=
  (String.ofList (cs.takeWhile (· ≠ '=')),
    match cs.dropWhile (· ≠ '=') with
    | [] => none
    | _ :: value => some (String.ofList value))

/-- Sorts words by the rules of a command. After a word of two dashes every word is an operand. -/
def scan (rules : List OptionRule) : List String → Except Rejection Arguments
  | [] => .ok empty
  | word :: words =>
    match word.toList with
    | ['-', '-'] => .ok ⟨[], words⟩
    | '-' :: '-' :: cs =>
      let (name, attached) := splitAttached cs
      match rules.find? (·.name = name), attached with
      | none, _ => .error (.unknownOption word)
      | some ⟨_, .flag⟩, none => (scan rules words).map (addOption name "")
      | some ⟨_, .flag⟩, some _ => .error (.needlessValue name)
      | some ⟨_, .value _⟩, some value => (scan rules words).map (addOption name value)
      | some ⟨_, .value dashes⟩, none =>
        match words with
        | [] => .error (.missingValue name)
        | value :: words =>
          if isDashed value.toList && !dashes then .error (.missingValue name)
          else (scan rules words).map (addOption name value)
    | cs => if isDashed cs then .error (.unknownOption word)
      else (scan rules words).map (addOperand word)

/-- The name of an option that is given twice, if there is one. -/
def repeated? : List (String × String) → Option String
  | [] => none
  | (name, _) :: rest =>
    if rest.any (·.1 = name) then some name else repeated? rest

/-- Sorts words; no option may be given twice. -/
def read (rules : List OptionRule) (words : List String) : Except Rejection Arguments := do
  let a ← scan rules words
  match repeated? a.options with
  | some name => throw (.repeated name)
  | none => return a

/-- Whether an option is given. -/
def has (a : Arguments) (name : String) : Bool := a.options.any (·.1 = name)

/-- The value of an option, if it is given. -/
def value? (a : Arguments) (name : String) : Option String :=
  (a.options.find? (·.1 = name)).map (·.2)

/-- The value of an option, if it is given, as its reader understands it. -/
def readValue {β : Type} (a : Arguments) (name : String) (read : String → Except String β) :
    Except Rejection (Option β) :=
  match a.value? name with
  | some text =>
    match read text with
    | .ok b => .ok (some b)
    | .error reason => .error (.badValue name reason)
  | none => .ok none

/-- The only operand. -/
def operand (a : Arguments) (what : String) : Except Rejection String :=
  match a.operands with
  | [word] => .ok word
  | [] => .error (.missingOperand what)
  | _ :: word :: _ => .error (.needlessOperand word)

end Arguments

end Straightedge.CommandLine
