import Straightedge.Scalar

/-! # Tokens of a script

* **`Symbol`**: the punctuation marks and operator signs.
* **`Token`**: what a script is made of.
* **`Lexeme`**: a token on its line.
* **`Symbol.ofChar?_char`**: each symbol is read back from its character. -/

namespace Straightedge.Script

/-- A punctuation mark or operator sign. -/
inductive Symbol
  | plus
  | minus
  | star
  | slash
  | leftParen
  | rightParen
  | leftBracket
  | rightBracket
  | leftAngle
  | rightAngle
  | comma
  | assign
  deriving DecidableEq, Repr

namespace Symbol

/-- The character of a symbol. -/
def char : Symbol → Char
  | plus => '+'
  | minus => '-'
  | star => '*'
  | slash => '/'
  | leftParen => '('
  | rightParen => ')'
  | leftBracket => '['
  | rightBracket => ']'
  | leftAngle => '<'
  | rightAngle => '>'
  | comma => ','
  | assign => '='

/-- The symbol that a character is. -/
def ofChar? : Char → Option Symbol
  | '+' => some plus
  | '-' => some minus
  | '*' => some star
  | '/' => some slash
  | '(' => some leftParen
  | ')' => some rightParen
  | '[' => some leftBracket
  | ']' => some rightBracket
  | '<' => some leftAngle
  | '>' => some rightAngle
  | ',' => some comma
  | '=' => some assign
  | _ => none

@[simp] theorem ofChar?_char (s : Symbol) : ofChar? s.char = some s := by cases s <;> rfl

end Symbol

/-- A token. -/
inductive Token (α : Type)
  /-- A number. -/
  | number (value : α)
  /-- A word. -/
  | word (text : String)
  /-- A quoted text, without its quotes and escapes. -/
  | quoted (text : String)
  /-- A punctuation mark or operator sign. -/
  | symbol (s : Symbol)
  /-- The end of a statement: a line break or a semicolon. -/
  | separator
  /-- The end of the script. -/
  | finish

/-- A token and the line, counted from one, that it starts on. -/
structure Lexeme (α : Type) where
  /-- The token. -/
  token : Token α
  /-- Its line. -/
  line : Nat

namespace Token

variable {α : Type}

/-- A token as an error message describes it. -/
def describe [Numeral α] : Token α → String
  | number value => "number " ++ Numeral.plain value
  | word text => "identifier `" ++ text ++ "`"
  | quoted text => "string \"" ++ text ++ "\""
  | symbol s => "`" ++ s.char.toString ++ "`"
  | separator => "end of statement"
  | finish => "end of input"

/-- Whether a token is the given symbol. -/
def isSymbol (s : Symbol) : Token α → Bool
  | symbol t => s = t
  | _ => false

/-- Whether a token ends a statement. -/
def isSeparator : Token α → Bool
  | separator => true
  | _ => false

end Token

end Straightedge.Script
