import Straightedge.Proofs.Inversion
import Straightedge.Script.Parser

/-! # Parsing as a walk

The readers of a script take lexemes off a list. Here the same readers walk over positions of a list
that stays as it is: they look at the current token and at the two behind it, they step on, and they
run loops. A walk has a stack for only so many calls within each other, and every loop is cut off
after so many rounds; these two limits are all that makes the definitions end.

* **`Cursor`**, **`Walk`**: where a walk stands, how often it went round a loop, and how it halts.
* **`Walk.peekAt`**, **`Walk.advance`**, **`Walk.expect`**: looking and stepping on.
* **`Walk.loop`**: a loop with a limit; `Walk.items` is the loop over items between commas.
* **`Walk.expression`**, **`Walk.atom`**, **`Walk.value`**, **`Walk.statement`**: the calls that may
  stand within each other.
* **`Walk.program`**: the walk over a whole script. -/

namespace Straightedge.Script

variable {α β σ : Type}

/-! ## Walks -/

/-- Where a walk stands. -/
structure Cursor where
  /-- The position of the current token. -/
  position : Nat
  /-- How many rounds of loops were begun. -/
  rounds : Nat

/-- Why a walk halts without a value. -/
inductive Halt
  /-- The script is malformed. -/
  | error (e : ParseError)
  /-- Too many calls stand within each other. -/
  | stackOverflow
  /-- A loop goes round too often. -/
  | endlessLoop

/-- A walk over tokens: it moves the cursor, and gives a value or halts. -/
abbrev Walk (β : Type) : Type := ExceptT Halt (StateM Cursor) β

namespace Walk

/-- What a walk gives and where it ends, from a cursor. -/
def exec (w : Walk β) (c : Cursor) : Except Halt β × Cursor := Id.run (StateT.run (ExceptT.run w) c)

@[simp] theorem exec_pure (x : β) (c : Cursor) : exec (pure x) c = (.ok x, c) := rfl

/-- A walk goes on where its first part ends, unless that halts. -/
theorem exec_bind (w : Walk σ) (next : σ → Walk β) (c : Cursor) :
    exec (w >>= next) c = match exec w c with
      | (.ok x, c') => exec (next x) c'
      | (.error h, c') => (.error h, c') := by
  unfold exec
  refine (run_bind_run w next c).trans ?_
  rcases Id.run (w.run.run c) with ⟨_ | _, _⟩ <;> rfl

/-- Repeats a step until it gives a value; more than `limit` times is too often. -/
def loop (step : σ → Walk (σ ⊕ β)) (limit : Nat) (s : σ) : Walk β :=
  match limit with
  | 0 => throw .endlessLoop
  | limit + 1 => do
    match ← step s with
    | .inl s => loop step limit s
    | .inr x => return x

/-- Begins a round of a loop. -/
def round : Walk Unit := modify fun c => { c with rounds := c.rounds + 1 }

section

variable (tokens : List (Lexeme α))

/-- The token so many positions behind the current one; past the last it is the end of the
script. -/
def peekAt (offset : Nat) : Walk (Token α) := do
  return current (tokens.drop ((← get).position + offset))

/-- The line errors are reported on. -/
def line : Walk Nat := do
  return lineOf (lastLineOf tokens) (tokens.drop (← get).position)

/-- Takes the current token and goes to the next position, unless all tokens are taken. -/
def advance : Walk (Token α) := do
  let token ← peekAt tokens 0
  modify fun c => if c.position < tokens.length then { c with position := c.position + 1 } else c
  return token

/-- Halts with a fault at the current token. -/
def reject (cause : Malformation) : Walk β := do
  throw (.error ⟨← line tokens, cause⟩)

variable [Numeral α]

/-- Halts because the current token is not the wanted one. -/
def mismatch (wanted : String) : Walk β := do
  reject tokens (.unexpectedToken wanted (← peekAt tokens 0).describe)

/-- Takes the given symbol. -/
def expect (s : Symbol) : Walk Unit := do
  if (← peekAt tokens 0).isSymbol s then discard (advance tokens)
  else mismatch tokens (Token.describe (α := α) (.symbol s))

/-- Takes a word. -/
def ident : Walk String := do
  match ← peekAt tokens 0 with
  | .word text =>
    discard (advance tokens)
    return text
  | _ => mismatch tokens "identifier"

/-- Takes items with commas between them while the closing symbol is not the current token. -/
def items (close : Symbol) (wanted : String) (item : σ → Walk σ) (limit : Nat) : σ → Walk σ :=
  loop (fun s => do
    if (← peekAt tokens 0).isSymbol close then return .inr s
    else
      round
      let s ← item s
      if (← peekAt tokens 0).isSymbol .comma then
        discard (advance tokens)
        return .inl s
      else if (← peekAt tokens 0).isSymbol close then return .inl s
      else mismatch tokens wanted) limit

/-- Takes items up to the closing symbol, which `finish` takes. -/
def enclosed (close : Symbol) (wanted : String) (item : σ → Walk σ) (finish : Walk Unit)
    (limit : Nat) (s : σ) : Walk σ := do
  let s ← items tokens close wanted item limit s
  finish
  return s

/-! ## Expressions -/

variable [Scalar α] (limit : Nat)

omit [Numeral α] in
/-- Operators with at least the precedence `least`, each with a right operand. -/
def climb (operand : Nat → Walk α) (least : Nat) : α → Walk α :=
  loop (fun left => do
    match Operator.ofToken? (← peekAt tokens 0) with
    | none => return .inr left
    | some operator =>
      round
      if operator.precedence < least then return .inr left
      else
        discard (advance tokens)
        let right ← operand (operator.precedence + 1)
        return .inl (operator.apply left right)) limit

mutual

/-- An expression whose operators have at least the precedence `least`. -/
def expression (stack least : Nat) : Walk α :=
  match stack with
  | 0 => throw .stackOverflow
  | stack + 1 => do
    let first ← atom stack
    climb tokens limit (fun least => expression stack least) least first

/-- A number, a signed or parenthesized expression, or a function call. -/
def atom (stack : Nat) : Walk α :=
  match stack with
  | 0 => throw .stackOverflow
  | stack + 1 => do
    match ← advance tokens with
    | .number value => return value
    | .symbol .minus => return -(← expression stack signPrecedence)
    | .symbol .plus => expression stack signPrecedence
    | .symbol .leftParen =>
      let inside ← expression stack 0
      expect tokens .rightParen
      return inside
    | .word name =>
      expect tokens .leftParen
      let args ← enclosed tokens .rightParen "`,` or `)`"
        (fun args => return args ++ [← expression stack 0]) (discard (advance tokens)) limit []
      match callFunction name args with
      | .ok value => return value
      | .error cause => reject tokens cause
    | other => reject tokens (.unexpectedToken "a number" other.describe)

end

/-! ## Arguments and statements -/

/-- An argument. A word before an opening parenthesis starts an expression. -/
def value (stack : Nat) : Walk (Arg α) :=
  match stack with
  | 0 => throw .stackOverflow
  | stack + 1 => do
    match ← peekAt tokens 0 with
    | .quoted text =>
      discard (advance tokens)
      return .quoted text
    | .word text =>
      if (← peekAt tokens 1).isSymbol .leftParen then
        return .number (← expression tokens limit stack 0)
      else
        discard (advance tokens)
        return Arg.ofWord text
    | .symbol .leftBracket =>
      discard (advance tokens)
      let args ← enclosed tokens .rightBracket "`,` or `]`"
        (fun args => return args ++ [← value stack]) (discard (advance tokens)) limit []
      return Arg.ofItems args
    | .symbol .leftAngle =>
      discard (advance tokens)
      let dx ← expression tokens limit stack 0
      expect tokens .comma
      let dy ← expression tokens limit stack 0
      expect tokens .rightAngle
      return .vector dx dy
    | _ => return .number (← expression tokens limit stack 0)

omit [Scalar α] [Numeral α] in
/-- Whether a word for bindings stands before a binding. -/
def hasKeyword : Walk Bool := do
  match ← peekAt tokens 0, ← peekAt tokens 1, ← peekAt tokens 2 with
  | .word keyword, .word _, .symbol .assign => return isBindingWord keyword
  | _, _, _ => return false

/-- A binding, if there is one. -/
def binding : Walk (Option String) := do
  match ← peekAt tokens 0, ← peekAt tokens 1 with
  | .word _, .symbol .assign =>
    let bound ← ident tokens
    discard (advance tokens)
    return some bound
  | _, _ => return none

/-- One argument of a statement, put behind those before it. -/
def parameter (stack : Nat) (ps : Parameters α) : Walk (Parameters α) := do
  match ← peekAt tokens 0, ← peekAt tokens 1 with
  | .word key, .symbol .assign =>
    discard (advance tokens)
    discard (advance tokens)
    return { ps with kwargs := ps.kwargs ++ [(key, ← value tokens limit stack)] }
  | _, _ =>
    if ps.kwargs.isEmpty then
      return { ps with args := ps.args ++ [← value tokens limit stack] }
    else reject tokens .positionalAfterKeyword

/-- A statement. -/
def statement (stack : Nat) : Walk (Command α) :=
  match stack with
  | 0 => throw .stackOverflow
  | stack + 1 => do
    let line ← line tokens
    if ← hasKeyword tokens then discard (advance tokens)
    let binding ← binding tokens
    let verb ← ident tokens
    expect tokens .leftParen
    let ps ← enclosed tokens .rightParen "`,` or `)`" (parameter tokens limit stack)
      (expect tokens .rightParen) limit ⟨[], []⟩
    return ⟨line, binding, verb, ps.args, ps.kwargs⟩

/-! ## Scripts -/

omit [Scalar α] [Numeral α] in
/-- Goes past separators. -/
def skipSeparators : Walk Unit :=
  loop (fun _ => do
    if (← peekAt tokens 0).isSeparator then
      round
      discard (advance tokens)
      return .inl ()
    else return .inr ()) limit ()

/-- Statements up to the end of the script, put behind those before them. -/
def commands (stack fuel : Nat) : List (Command α) → Walk (List (Command α)) :=
  loop (fun out => do
    round
    skipSeparators tokens limit
    if (← peekAt tokens 0).isFinish then return .inr out
    else
      let command ← statement tokens limit stack
      if (← peekAt tokens 0).endsStatement then return .inl (out ++ [command])
      else mismatch tokens "end of statement") fuel

/-- All statements of a script. -/
def program (stack : Nat) : Walk (List (Command α)) := commands tokens limit stack limit []

end

end Walk

end Straightedge.Script
