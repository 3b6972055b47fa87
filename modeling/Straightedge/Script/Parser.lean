import Straightedge.Script.Command
import Straightedge.Script.Expression
import Straightedge.Script.Lexer

/-! # From tokens to commands

A script is a sequence of statements between separators. A statement is a call of an operation,
after an optional binding; its arguments are values, then keyword values.

* **`value`**: reads an argument.
* **`parameters`**: reads the arguments of a statement.
* **`statement`**: reads a statement.
* **`commands`**: reads all statements.
* **`parse`**: the commands of a script. -/

namespace Straightedge.Script

variable {α : Type}

/-! ## Bindings and separators -/

/-- Words that may stand before a binding. -/
def isBindingWord (text : String) : Bool := text = "let" || text = "const" || text = "var"

/-- The binding at the front of a statement, if there is one, and the lexemes after it. -/
def splitBinding (lexemes : List (Lexeme α)) : Option String × List (Lexeme α) :=
  match lexemes with
  | ⟨.word keyword, _⟩ :: ⟨.word bound, _⟩ :: ⟨.symbol .assign, _⟩ :: rest =>
    if isBindingWord keyword then (some bound, rest) else (none, lexemes)
  | ⟨.word bound, _⟩ :: ⟨.symbol .assign, _⟩ :: rest => (some bound, rest)
  | _ => (none, lexemes)

theorem length_splitBinding_le (lexemes : List (Lexeme α)) :
    (splitBinding lexemes).2.length ≤ lexemes.length := by
  unfold splitBinding
  split
  · split
    · simp only [List.length_cons]; omega
    · exact Nat.le_refl _
  · simp only [List.length_cons]; omega
  · exact Nat.le_refl _

/-- The lexemes after the separators at the front. -/
def skipSeparators (lexemes : List (Lexeme α)) : List (Lexeme α) :=
  lexemes.dropWhile (·.token.isSeparator)

theorem length_skipSeparators_le (lexemes : List (Lexeme α)) :
    (skipSeparators lexemes).length ≤ lexemes.length :=
  (List.dropWhile_sublist _).length_le

/-- Whether a statement may stop before a token. -/
def Token.endsStatement : Token α → Bool
  | .separator => true
  | .finish => true
  | _ => false

/-- Whether a token is the end of the script. -/
def Token.isFinish : Token α → Bool
  | .finish => true
  | _ => false

/-- The line of the last lexeme. -/
def lastLineOf (lexemes : List (Lexeme α)) : Nat := (lexemes.getLast?.map (·.line)).getD 1

variable [Scalar α] [Numeral α]

/-! ## Values -/

mutual

/-- Reads an argument value. A word before an opening parenthesis starts an expression. -/
def value (lastLine : Nat) (lexemes : List (Lexeme α)) : Reading α (Arg α) lexemes :=
  match lexemes with
  | ⟨.quoted text, _⟩ :: rest => .ok (.single (.quoted text) _ rest)
  | ⟨.symbol .leftBracket, _⟩ :: rest => do
    let items ← listItems lastLine rest
    return ⟨Arg.ofItems items.value, items.lexemes, Nat.lt_succ_of_lt items.length_lt⟩
  | ⟨.symbol .leftAngle, _⟩ :: rest => do
    let dx ← expression lastLine 0 rest
    let comma ← expect lastLine .comma dx.lexemes
    let dy ← expression lastLine 0 comma.lexemes
    let close ← expect lastLine .rightAngle dy.lexemes
    return ⟨.vector dx.value dy.value, close.lexemes, by
      have := dx.length_lt; have := comma.length_lt
      have := dy.length_lt; have := close.length_lt
      simp only [List.length_cons]; omega⟩
  | ⟨.word text, line⟩ :: rest =>
    if (current rest).isSymbol .leftParen then do
      let number ← expression lastLine 0 (⟨.word text, line⟩ :: rest)
      return ⟨.number number.value, number.lexemes, number.length_lt⟩
    else .ok (.single (Arg.ofWord text) _ rest)
  | other => do
    let number ← expression lastLine 0 other
    return ⟨.number number.value, number.lexemes, number.length_lt⟩
termination_by (lexemes.length, 0)
decreasing_by
  exact Prod.Lex.left _ _ (Nat.lt_succ_self _)

/-- Reads the items of a bracketed list up to the closing bracket. -/
def listItems (lastLine : Nat) (lexemes : List (Lexeme α)) : Reading α (List (Arg α)) lexemes :=
  match lexemes with
  | ⟨.symbol .rightBracket, _⟩ :: rest => .ok (.single [] _ rest)
  | lexemes => do
    let first ← value lastLine lexemes
    match _h : first.lexemes with
    | ⟨.symbol .comma, _⟩ :: rest => do
      let more ← listItems lastLine rest
      return ⟨first.value :: more.value, more.lexemes,
        Nat.lt_trans more.length_lt (first.length_tail_lt _h)⟩
    | ⟨.symbol .rightBracket, _⟩ :: rest =>
      return ⟨[first.value], rest, first.length_tail_lt _h⟩
    | other => throw (unexpected lastLine "`,` or `]`" other)
termination_by (lexemes.length, 1)
decreasing_by
  · exact Prod.Lex.right _ (by decide)
  · exact Prod.Lex.left _ _ (first.length_tail_lt _h)

end

/-! ## Statements -/

/-- The arguments of a statement. -/
structure Parameters (α : Type) where
  /-- Positional arguments. -/
  args : List (Arg α)
  /-- Keyword arguments. -/
  kwargs : List (String × Arg α)

/-- Reads one argument; `keyworded` tells that a keyword argument came before it. -/
def parameter (lastLine : Nat) (keyworded : Bool) (lexemes : List (Lexeme α)) :
    Reading α (Option String × Arg α) lexemes :=
  match lexemes with
  | ⟨.word key, _⟩ :: ⟨.symbol .assign, _⟩ :: rest => do
    let arg ← value lastLine rest
    return ⟨(some key, arg.value), arg.lexemes,
      Nat.lt_succ_of_lt (Nat.lt_succ_of_lt arg.length_lt)⟩
  | other =>
    if keyworded then .error ⟨lineOf lastLine other, .positionalAfterKeyword⟩
    else do
      let arg ← value lastLine other
      return ⟨(none, arg.value), arg.lexemes, arg.length_lt⟩

/-- Puts an argument before others. -/
def Parameters.cons : Option String × Arg α → Parameters α → Parameters α
  | (none, arg), ps => { ps with args := arg :: ps.args }
  | (some key, arg), ps => { ps with kwargs := (key, arg) :: ps.kwargs }

/-- Reads the arguments of a statement up to the closing parenthesis. -/
def parameters (lastLine : Nat) (keyworded : Bool) (lexemes : List (Lexeme α)) :
    Reading α (Parameters α) lexemes :=
  match lexemes with
  | ⟨.symbol .rightParen, _⟩ :: rest => .ok (.single ⟨[], []⟩ _ rest)
  | lexemes => do
    let first ← parameter lastLine keyworded lexemes
    match _h : first.lexemes with
    | ⟨.symbol .comma, _⟩ :: rest => do
      let more ← parameters lastLine (keyworded || first.value.1.isSome) rest
      return ⟨more.value.cons first.value, more.lexemes,
        Nat.lt_trans more.length_lt (first.length_tail_lt _h)⟩
    | ⟨.symbol .rightParen, _⟩ :: rest =>
      return ⟨Parameters.cons first.value ⟨[], []⟩, rest, first.length_tail_lt _h⟩
    | other => throw (unexpected lastLine "`,` or `)`" other)
termination_by lexemes.length
decreasing_by
  exact first.length_tail_lt _h

/-- Reads the word that names an operation. -/
def verbWord (lastLine : Nat) (lexemes : List (Lexeme α)) : Reading α String lexemes :=
  match lexemes with
  | ⟨.word verb, _⟩ :: rest => .ok (.single verb _ rest)
  | other => .error (unexpected lastLine "identifier" other)

/-- Reads a statement. -/
def statement (lastLine : Nat) (lexemes : List (Lexeme α)) : Reading α (Command α) lexemes := do
  let verb ← verbWord lastLine (splitBinding lexemes).2
  let opening ← expect lastLine .leftParen verb.lexemes
  let ps ← parameters lastLine false opening.lexemes
  return {
    value := {
      line := lineOf lastLine lexemes
      binding := (splitBinding lexemes).1
      verb := verb.value
      args := ps.value.args
      kwargs := ps.value.kwargs }
    lexemes := ps.lexemes
    length_lt := by
      have := length_splitBinding_le lexemes
      have := verb.length_lt; have := opening.length_lt; have := ps.length_lt
      omega }

/-! ## Scripts -/

/-- Reads statements up to the end of the script. -/
def commands (lastLine : Nat) (lexemes : List (Lexeme α)) :
    Except ParseError (List (Command α)) :=
  if (current (skipSeparators lexemes)).isFinish then .ok []
  else do
    let first ← statement lastLine (skipSeparators lexemes)
    if (current first.lexemes).endsStatement then
      let more ← commands lastLine first.lexemes
      return first.value :: more
    else throw (unexpected lastLine "end of statement" first.lexemes)
termination_by lexemes.length
decreasing_by
  exact Nat.lt_of_lt_of_le first.length_lt (length_skipSeparators_le lexemes)

/-- The commands that lexemes spell. -/
def parseLexemes (lexemes : List (Lexeme α)) : Except ParseError (List (Command α)) :=
  commands (lastLineOf lexemes) lexemes

/-- The commands of a script. -/
def parse (source : String) : Except ParseError (List (Command α)) := do
  parseLexemes (← tokenize source)

end Straightedge.Script
