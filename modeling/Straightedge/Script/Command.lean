/-! # Commands of a script

* **`Arg`**: an argument as it is written.
* **`Command`**: one statement. -/

namespace Straightedge.Script

/-- An argument of a statement. -/
inductive Arg (α : Type)
  /-- The value of a numeric expression. -/
  | number (value : α)
  /-- A quoted text. -/
  | quoted (text : String)
  /-- A bare word: a binding or the name of a figure. -/
  | word (text : String)
  /-- Two numbers in brackets, a position. -/
  | pair (x y : α)
  /-- Two numbers in angle brackets, a direction. -/
  | vector (dx dy : α)
  /-- A truth value. -/
  | flag (value : Bool)
  /-- A bracketed list that is not a position. -/
  | list (items : List (Arg α))

namespace Arg

variable {α : Type}

/-- The kind of an argument as an error message names it. -/
def describe : Arg α → String
  | number _ => "a number"
  | quoted _ => "a string"
  | word _ => "a name"
  | pair _ _ => "a coordinate"
  | vector _ _ => "a vector"
  | flag _ => "a boolean"
  | list _ => "a list"

/-- The argument that a bare word is: a truth value or a name. -/
def ofWord (text : String) : Arg α :=
  if text = "true" then flag true
  else if text = "false" then flag false
  else word text

/-- The argument that a bracketed list is: two numbers are a position, anything else a list. -/
def ofItems : List (Arg α) → Arg α
  | [number x, number y] => pair x y
  | items => list items

@[simp] theorem ofItems_number_number (x y : α) : ofItems [number x, number y] = pair x y := rfl

@[simp] theorem ofItems_nil : ofItems ([] : List (Arg α)) = list [] := rfl

@[simp] theorem ofItems_singleton (a : Arg α) : ofItems [a] = list [a] := by cases a <;> rfl

end Arg

/-- A statement: an operation with its arguments and, if wanted, a word for its result. -/
structure Command (α : Type) where
  /-- Line of the first token. -/
  line : Nat
  /-- The word that later arguments use for the result. -/
  binding : Option String
  /-- The operation, as written. -/
  verb : String
  /-- Positional arguments. -/
  args : List (Arg α)
  /-- Keyword arguments. -/
  kwargs : List (String × Arg α)

end Straightedge.Script
