import Straightedge.Script.Malformation
import Straightedge.Script.Token

/-! # Numeric expressions

Sums, products, signs, parentheses and calls of a few functions are folded to one number while they
are read. Operators of one precedence go from left to right: after an operand, `climb` takes
operators as long as they bind at least as tightly as wanted, and each of them takes an operand that
binds more tightly.

* **`Rest`**: what a reader leaves, which is less than a bound; this makes every reader end.
* **`Operator`**: the four operators with their precedence.
* **`callFunction`**: the functions.
* **`expression`**: the reader of expressions. -/

namespace Straightedge.Script

variable {α : Type}

/-! ## Reading tokens -/

/-- A value that was read, and the lexemes after it, fewer than `bound`. -/
structure Rest (α β : Type) (bound : Nat) where
  /-- The value. -/
  value : β
  /-- The lexemes not yet read. -/
  lexemes : List (Lexeme α)
  /-- There are fewer of them than the bound. -/
  length_lt : lexemes.length < bound

/-- A value read from a single lexeme. -/
def Rest.single {α β : Type} (value : β) (lexeme : Lexeme α) (lexemes : List (Lexeme α)) :
    Rest α β (lexeme :: lexemes).length :=
  ⟨value, lexemes, Nat.lt_succ_self _⟩

/-- After one more lexeme there are still fewer than the bound. -/
theorem Rest.length_tail_lt {α β : Type} {bound : Nat} (first : Rest α β bound) {l : Lexeme α}
    {rest : List (Lexeme α)} (h : first.lexemes = l :: rest) : rest.length < bound := by
  have hlt := first.length_lt
  rw [h, List.length_cons] at hlt
  exact Nat.lt_of_succ_lt hlt

/-- A reader's answer on lexemes: at least one of them is read, or there is an error. -/
abbrev Reading (α β : Type) (lexemes : List (Lexeme α)) : Type :=
  Except ParseError (Rest α β lexemes.length)

/-- The current token; past the last lexeme it is the end of the script. -/
def current : List (Lexeme α) → Token α
  | [] => .finish
  | lexeme :: _ => lexeme.token

/-- The line errors are reported on: that of the current token, past the end that of the last. -/
def lineOf (lastLine : Nat) : List (Lexeme α) → Nat
  | [] => lastLine
  | lexeme :: _ => lexeme.line

@[simp] theorem current_nil : current ([] : List (Lexeme α)) = .finish := rfl

@[simp] theorem current_cons (l : Lexeme α) (ls : List (Lexeme α)) :
    current (l :: ls) = l.token := rfl

@[simp] theorem lineOf_nil (lastLine : Nat) : lineOf lastLine ([] : List (Lexeme α)) = lastLine := rfl

@[simp] theorem lineOf_cons (lastLine : Nat) (l : Lexeme α) (ls : List (Lexeme α)) :
    lineOf lastLine (l :: ls) = l.line := rfl

/-- The error that the current token is not the wanted one. -/
def unexpected [Numeral α] (lastLine : Nat) (wanted : String) (lexemes : List (Lexeme α)) :
    ParseError :=
  ⟨lineOf lastLine lexemes, .unexpectedToken wanted (current lexemes).describe⟩

/-- Reads the given symbol. -/
def expect [Numeral α] (lastLine : Nat) (s : Symbol) (lexemes : List (Lexeme α)) :
    Reading α Unit lexemes :=
  match lexemes with
  | ⟨.symbol t, line⟩ :: rest =>
    if s = t then .ok (.single () ⟨.symbol t, line⟩ rest)
    else .error (unexpected lastLine (Token.describe (α := α) (.symbol s)) (⟨.symbol t, line⟩ :: rest))
  | other => .error (unexpected lastLine (Token.describe (α := α) (.symbol s)) other)

/-! ## Operators and functions -/

/-- An operator between two numbers. -/
inductive Operator
  | add
  | sub
  | mul
  | div
  deriving DecidableEq, Repr

namespace Operator

/-- How tightly an operator binds. -/
def precedence : Operator → Nat
  | add => 1
  | sub => 1
  | mul => 2
  | div => 2

/-- The value of an operator. -/
def apply [Scalar α] : Operator → α → α → α
  | add, x, y => x + y
  | sub, x, y => x - y
  | mul, x, y => x * y
  | div, x, y => x / y

/-- The operator that a token is. -/
def ofToken? : Token α → Option Operator
  | .symbol .plus => some add
  | .symbol .minus => some sub
  | .symbol .star => some mul
  | .symbol .slash => some div
  | _ => none

end Operator

/-- A sign binds more tightly than every operator. -/
def signPrecedence : Nat := 3

/-- A function of one number applied to a list of them. -/
def callUnary (name : String) (f : α → α) : List α → Except Malformation α
  | [x] => .ok (f x)
  | args => .error (.wantsOneArgument name args.length)

/-- The value of a function call. -/
def callFunction [Scalar α] (name : String) (args : List α) : Except Malformation α :=
  match name with
  | "sqrt" => callUnary name Scalar.sqrt args
  | "sin" => callUnary name Scalar.sin args
  | "cos" => callUnary name Scalar.cos args
  | "tan" => callUnary name Scalar.tan args
  | "abs" => callUnary name Scalar.abs args
  | "pi" => if args.isEmpty then .ok Scalar.pi else .error (.wantsNoArgument name args.length)
  | _ => .error (.unknownFunction name)

/-! ## Expressions -/

variable [Scalar α] [Numeral α]

mutual

/-- Reads an expression whose operators have at least the precedence `least`. -/
def expression (lastLine least : Nat) (lexemes : List (Lexeme α)) : Reading α α lexemes := do
  let first ← atom lastLine lexemes
  let whole ← climb lastLine least first.value first.lexemes
  return ⟨whole.value, whole.lexemes, by have := first.length_lt; have := whole.length_lt; omega⟩
termination_by (lexemes.length, 1)
decreasing_by
  · exact Prod.Lex.right _ (by decide)
  · exact Prod.Lex.left _ _ first.length_lt

/-- Reads operators with at least the precedence `least`, each with its right operand, and applies
them from left to right, starting from the value `left`. -/
def climb (lastLine least : Nat) (left : α) (lexemes : List (Lexeme α)) :
    Except ParseError (Rest α α (lexemes.length + 1)) :=
  match lexemes with
  | [] => .ok ⟨left, [], Nat.lt_succ_self _⟩
  | lexeme :: rest =>
    match Operator.ofToken? lexeme.token with
    | none => .ok ⟨left, lexeme :: rest, Nat.lt_succ_self _⟩
    | some operator =>
      if operator.precedence < least then .ok ⟨left, lexeme :: rest, Nat.lt_succ_self _⟩
      else do
        let right ← expression lastLine (operator.precedence + 1) rest
        let whole ← climb lastLine least (operator.apply left right.value) right.lexemes
        return ⟨whole.value, whole.lexemes, by
          have := right.length_lt; have := whole.length_lt; simp only [List.length_cons]; omega⟩
termination_by (lexemes.length, 0)
decreasing_by
  · exact Prod.Lex.left _ _ (Nat.lt_succ_self _)
  · exact Prod.Lex.left _ _ (Nat.lt_succ_of_lt right.length_lt)

/-- Reads a number, a signed or parenthesized expression, or a function call. -/
def atom (lastLine : Nat) (lexemes : List (Lexeme α)) : Reading α α lexemes :=
  match lexemes with
  | [] => .error ⟨lastLine, .unexpectedToken "a number" (Token.describe (α := α) .finish)⟩
  | ⟨token, _⟩ :: rest =>
    match token with
    | .number value => .ok (.single value _ rest)
    | .symbol .minus => do
      let operand ← expression lastLine signPrecedence rest
      return ⟨-operand.value, operand.lexemes, Nat.lt_succ_of_lt operand.length_lt⟩
    | .symbol .plus => do
      let operand ← expression lastLine signPrecedence rest
      return ⟨operand.value, operand.lexemes, Nat.lt_succ_of_lt operand.length_lt⟩
    | .symbol .leftParen => do
      let inside ← expression lastLine 0 rest
      let close ← expect lastLine .rightParen inside.lexemes
      return ⟨inside.value, close.lexemes,
        Nat.lt_succ_of_lt (Nat.lt_trans close.length_lt inside.length_lt)⟩
    | .word name => do
      let opening ← expect lastLine .leftParen rest
      let args ← arguments lastLine opening.lexemes
      match callFunction name args.value with
      | .ok value =>
        return ⟨value, args.lexemes,
          Nat.lt_succ_of_lt (Nat.lt_trans args.length_lt opening.length_lt)⟩
      | .error cause => throw ⟨lineOf lastLine args.lexemes, cause⟩
    | other =>
      .error ⟨lineOf lastLine rest, .unexpectedToken "a number" (Token.describe other)⟩
termination_by (lexemes.length, 0)
decreasing_by
  · exact Prod.Lex.left _ _ (Nat.lt_succ_self _)
  · exact Prod.Lex.left _ _ (Nat.lt_succ_self _)
  · exact Prod.Lex.left _ _ (Nat.lt_succ_self _)
  · exact Prod.Lex.left _ _ (Nat.lt_succ_of_lt opening.length_lt)

/-- Reads the arguments of a function call up to the closing parenthesis. -/
def arguments (lastLine : Nat) (lexemes : List (Lexeme α)) : Reading α (List α) lexemes :=
  match lexemes with
  | ⟨.symbol .rightParen, _⟩ :: rest => .ok (.single [] _ rest)
  | lexemes => do
    let first ← expression lastLine 0 lexemes
    match _h : first.lexemes with
    | ⟨.symbol .comma, _⟩ :: rest => do
      let more ← arguments lastLine rest
      return ⟨first.value :: more.value, more.lexemes,
        Nat.lt_trans more.length_lt (first.length_tail_lt _h)⟩
    | ⟨.symbol .rightParen, _⟩ :: rest =>
      return ⟨[first.value], rest, first.length_tail_lt _h⟩
    | other => throw (unexpected lastLine "`,` or `)`" other)
termination_by (lexemes.length, 2)
decreasing_by
  · exact Prod.Lex.right _ (by decide)
  · exact Prod.Lex.left _ _ (first.length_tail_lt _h)

end

end Straightedge.Script
