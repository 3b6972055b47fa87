import Straightedge.Scalar

/-! # JSON values and their text

* **`Json`**: a value; an object keeps the order of its fields.
* **`Json.compact`**: its text without blanks.
* **`Json.pretty`**: its text with one item per line, indented by two blanks a level. -/

namespace Straightedge

/-- A JSON value over a type of numbers. -/
inductive Json (α : Type)
  | null
  | bool (value : Bool)
  /-- A whole number. -/
  | count (value : Nat)
  | number (value : α)
  | text (value : String)
  | list (items : List (Json α))
  | object (fields : List (String × Json α))
  deriving Inhabited

namespace Json

variable {α : Type}

/-! ## Quoted texts -/

/-- The digit of a number below 16. -/
def hexDigit (n : Nat) : Char := if n < 10 then Char.ofNat (48 + n) else Char.ofNat (87 + n)

/-- A character inside quotes. Quotes, backslashes and control characters are escaped, everything
else stands for itself. -/
def escape (c : Char) : List Char :=
  if c = '\x22' then ['\\', '\x22']
  else if c = '\\' then ['\\', '\\']
  else if c = '\x08' then ['\\', 'b']
  else if c = '\x0c' then ['\\', 'f']
  else if c = '\n' then ['\\', 'n']
  else if c = '\r' then ['\\', 'r']
  else if c = '\t' then ['\\', 't']
  else if c.toNat < 32 then
    ['\\', 'u', '0', '0', hexDigit (c.toNat / 16), hexDigit (c.toNat % 16)]
  else [c]

/-- A text in quotes. -/
def quote (s : String) : String := "\"" ++ String.ofList (s.toList.flatMap escape) ++ "\""

/-! ## Texts of values -/

/-- A value that holds no other. -/
def atomText [Numeral α] : Json α → Option String
  | null => some "null"
  | bool true => some "true"
  | bool false => some "false"
  | count n => some (Nat.repr n)
  | number x => some ((Numeral.data? x).getD "null")
  | text s => some (quote s)
  | list _ => none
  | object _ => none

mutual

/-- Appends the text of a value without blanks. -/
def writeCompact [Numeral α] (out : String) : Json α → String
  | list [] => out ++ "[]"
  | list (item :: items) => writeCompactItems (writeCompact (out ++ "[") item) items ++ "]"
  | object [] => out ++ "\x7b\x7d"
  | object ((key, item) :: fields) =>
    writeCompactFields (writeCompact (out ++ "\x7b" ++ quote key ++ ":") item) fields ++ "\x7d"
  | atom => out ++ atom.atomText.getD ""

/-- Appends further items of a list. -/
def writeCompactItems [Numeral α] (out : String) : List (Json α) → String
  | [] => out
  | item :: items => writeCompactItems (writeCompact (out ++ ",") item) items

/-- Appends further fields of an object. -/
def writeCompactFields [Numeral α] (out : String) : List (String × Json α) → String
  | [] => out
  | (key, item) :: fields =>
    writeCompactFields (writeCompact (out ++ "," ++ quote key ++ ":") item) fields

end

/-- The text of a value without blanks. -/
def compact [Numeral α] (value : Json α) : String := writeCompact "" value

/-- A line break and the indentation of a level. -/
def newLine (level : Nat) : String := "\n" ++ String.ofList (List.replicate (2 * level) ' ')

mutual

/-- Appends the text of a value that starts on a line of the given level. -/
def writePretty [Numeral α] (level : Nat) (out : String) : Json α → String
  | list [] => out ++ "[]"
  | list (item :: items) =>
    writePrettyItems (level + 1)
      (writePretty (level + 1) (out ++ "[" ++ newLine (level + 1)) item) items
      ++ newLine level ++ "]"
  | object [] => out ++ "\x7b\x7d"
  | object ((key, item) :: fields) =>
    writePrettyFields (level + 1)
      (writePretty (level + 1) (out ++ "\x7b" ++ newLine (level + 1) ++ quote key ++ ": ") item)
      fields ++ newLine level ++ "\x7d"
  | atom => out ++ atom.atomText.getD ""

/-- Appends further items of a list, each on a line of the given level. -/
def writePrettyItems [Numeral α] (level : Nat) (out : String) : List (Json α) → String
  | [] => out
  | item :: items =>
    writePrettyItems level (writePretty level (out ++ "," ++ newLine level) item) items

/-- Appends further fields of an object, each on a line of the given level. -/
def writePrettyFields [Numeral α] (level : Nat) (out : String) : List (String × Json α) → String
  | [] => out
  | (key, item) :: fields =>
    writePrettyFields level
      (writePretty level (out ++ "," ++ newLine level ++ quote key ++ ": ") item) fields

end

/-- The text of a value with one item per line. -/
def pretty [Numeral α] (value : Json α) : String := writePretty 0 "" value

end Json

end Straightedge
