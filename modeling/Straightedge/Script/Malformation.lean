/-! # Malformed scripts

What can be wrong with the text of a script before any operation runs.

* **`Malformation`**: the fault.
* **`Malformation.message`**: its wording.
* **`ParseError`**: a fault and the line it is reported on. -/

namespace Straightedge.Script

/-- A fault in the text of a script. -/
inductive Malformation
  /-- A number without a digit; the lexeme is quoted. -/
  | invalidNumber (lexeme : String)
  /-- A quoted text that its line or the script ends before its closing quote. -/
  | unterminatedText
  /-- A character that starts no token. -/
  | unexpectedCharacter (c : Char)
  /-- Something else stands where the grammar wants a token; both are described. -/
  | unexpectedToken (wanted found : String)
  /-- A positional argument after a keyword argument. -/
  | positionalAfterKeyword
  /-- A function of one number called with another count of them. -/
  | wantsOneArgument (function : String) (given : Nat)
  /-- A constant called with arguments. -/
  | wantsNoArgument (function : String) (given : Nat)
  /-- A word that names no function. -/
  | unknownFunction (name : String)
  deriving DecidableEq, Repr

/-- The wording of a fault. -/
def Malformation.message : Malformation → String
  | .invalidNumber lexeme => "invalid number '" ++ lexeme ++ "'"
  | .unterminatedText => "unterminated string"
  | .unexpectedCharacter c => "unexpected character '" ++ c.toString ++ "'"
  | .unexpectedToken wanted found => "expected " ++ wanted ++ ", found " ++ found
  | .positionalAfterKeyword => "positional argument after keyword argument"
  | .wantsOneArgument function given =>
    function ++ "() takes 1 argument, got " ++ Nat.repr given
  | .wantsNoArgument function given =>
    function ++ "() takes no arguments, got " ++ Nat.repr given
  | .unknownFunction name => "unknown function `" ++ name ++ "`"

/-- A fault and the line, counted from one, that it is reported on. -/
structure ParseError where
  /-- The line. -/
  line : Nat
  /-- The fault. -/
  cause : Malformation
  deriving DecidableEq, Repr

end Straightedge.Script
