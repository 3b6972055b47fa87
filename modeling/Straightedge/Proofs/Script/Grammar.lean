import Straightedge.Script.Command
import Straightedge.Script.Token

/-! # The grammar of scripts

What a list of lexemes spells, told by rules that mention no reader. The lines of the lexemes are
free, except that a command is on the line of its first lexeme.

* **`Commas`**: items between commas; a comma may also follow the last one.
* **`IsSum`**, **`IsProduct`**, **`IsFactor`**: numeric expressions and their values.
* **`IsValue`**, **`IsParameter`**: arguments.
* **`IsStatement`**, **`IsProgram`**: statements and scripts. -/

namespace Straightedge.Script

variable {α : Type}

/-- The given symbol on some line. -/
abbrev mark (s : Symbol) (line : Nat) : Lexeme α := ⟨.symbol s, line⟩

/-- The given word on some line. -/
abbrev wordAt (text : String) (line : Nat) : Lexeme α := ⟨.word text, line⟩

/-! ## Items between commas -/

/-- Items that `P` spells, with a comma between any two of them; one more comma may follow the last
item. -/
inductive Commas {β : Type} (P : List (Lexeme α) → β → Prop) : List (Lexeme α) → List β → Prop
  | nil : Commas P [] []
  | last {ts : List (Lexeme α)} {x : β} (h : P ts x) : Commas P ts [x]
  | cons {ts us : List (Lexeme α)} {x : β} {xs : List β} {n : Nat} (h : P ts x)
      (hs : Commas P us xs) : Commas P (ts ++ mark .comma n :: us) (x :: xs)

/-! ## Numeric expressions -/

variable [Scalar α]

/-- The value of a function: five take one number, and `pi` takes none. -/
inductive IsCall : String → List α → α → Prop
  | sqrt (x : α) : IsCall "sqrt" [x] (Scalar.sqrt x)
  | sin (x : α) : IsCall "sin" [x] (Scalar.sin x)
  | cos (x : α) : IsCall "cos" [x] (Scalar.cos x)
  | tan (x : α) : IsCall "tan" [x] (Scalar.tan x)
  | abs (x : α) : IsCall "abs" [x] (Scalar.abs x)
  | pi : IsCall "pi" [] Scalar.pi

mutual

/-- A sum is products with plus and minus signs between them, taken from left to right. -/
inductive IsSum : List (Lexeme α) → α → Prop
  | product {ts : List (Lexeme α)} {x : α} (h : IsProduct ts x) : IsSum ts x
  | add {ts us : List (Lexeme α)} {x y : α} {n : Nat} (h : IsSum ts x) (h' : IsProduct us y) :
      IsSum (ts ++ mark .plus n :: us) (x + y)
  | sub {ts us : List (Lexeme α)} {x y : α} {n : Nat} (h : IsSum ts x) (h' : IsProduct us y) :
      IsSum (ts ++ mark .minus n :: us) (x - y)

/-- A product is factors with multiplication and division signs between them, taken from left to
right. -/
inductive IsProduct : List (Lexeme α) → α → Prop
  | factor {ts : List (Lexeme α)} {x : α} (h : IsFactor ts x) : IsProduct ts x
  | mul {ts us : List (Lexeme α)} {x y : α} {n : Nat} (h : IsProduct ts x) (h' : IsFactor us y) :
      IsProduct (ts ++ mark .star n :: us) (x * y)
  | div {ts us : List (Lexeme α)} {x y : α} {n : Nat} (h : IsProduct ts x) (h' : IsFactor us y) :
      IsProduct (ts ++ mark .slash n :: us) (x / y)

/-- A factor is a number, a factor with a sign, a sum in parentheses or the call of a function. -/
inductive IsFactor : List (Lexeme α) → α → Prop
  | number (x : α) (n : Nat) : IsFactor [⟨.number x, n⟩] x
  | plus {ts : List (Lexeme α)} {x : α} {n : Nat} (h : IsFactor ts x) :
      IsFactor (mark .plus n :: ts) x
  | minus {ts : List (Lexeme α)} {x : α} {n : Nat} (h : IsFactor ts x) :
      IsFactor (mark .minus n :: ts) (-x)
  | paren {ts : List (Lexeme α)} {x : α} {m n : Nat} (h : IsSum ts x) :
      IsFactor (mark .leftParen m :: ts ++ [mark .rightParen n]) x
  | call {f : String} {ts : List (Lexeme α)} {xs : List α} {x : α} {l m n : Nat}
      (h : Commas IsSum ts xs) (hf : IsCall f xs x) :
      IsFactor (wordAt f l :: mark .leftParen m :: ts ++ [mark .rightParen n]) x

end

/-! ## Arguments -/

/-- A value is a quoted text, a truth value, a name, two numbers or a list in brackets, a direction,
or a sum. What follows a value is never an opening parenthesis, so a word that is a name needs no
look at the lexeme after it. -/
inductive IsValue : List (Lexeme α) → Arg α → Prop
  | quoted (text : String) (n : Nat) : IsValue [⟨.quoted text, n⟩] (.quoted text)
  | true (n : Nat) : IsValue [wordAt "true" n] (.flag true)
  | false (n : Nat) : IsValue [wordAt "false" n] (.flag false)
  | name {text : String} {n : Nat} (htrue : text ≠ "true") (hfalse : text ≠ "false") :
      IsValue [wordAt text n] (.word text)
  | pair {ts : List (Lexeme α)} {x y : α} {m n : Nat}
      (h : Commas IsValue ts [.number x, .number y]) :
      IsValue (mark .leftBracket m :: ts ++ [mark .rightBracket n]) (.pair x y)
  | list {ts : List (Lexeme α)} {items : List (Arg α)} {m n : Nat} (h : Commas IsValue ts items)
      (hitems : ∀ x y, items ≠ [.number x, .number y]) :
      IsValue (mark .leftBracket m :: ts ++ [mark .rightBracket n]) (.list items)
  | vector {ts us : List (Lexeme α)} {x y : α} {l m n : Nat} (h : IsSum ts x) (h' : IsSum us y) :
      IsValue (mark .leftAngle l :: ts ++ mark .comma m :: us ++ [mark .rightAngle n]) (.vector x y)
  | number {ts : List (Lexeme α)} {x : α} (h : IsSum ts x) : IsValue ts (.number x)

/-- An argument is a value, or a value after a keyword. -/
inductive IsParameter : List (Lexeme α) → Option String × Arg α → Prop
  | positional {ts : List (Lexeme α)} {arg : Arg α} (h : IsValue ts arg) :
      IsParameter ts (none, arg)
  | keyword {key : String} {ts : List (Lexeme α)} {arg : Arg α} {m n : Nat} (h : IsValue ts arg) :
      IsParameter (wordAt key m :: mark .assign n :: ts) (some key, arg)

/-- Positional arguments followed by keyword arguments. -/
def joined (args : List (Arg α)) (kwargs : List (String × Arg α)) :
    List (Option String × Arg α) :=
  args.map (fun arg => (none, arg)) ++ kwargs.map (fun kwarg => (some kwarg.1, kwarg.2))

/-! ## Statements and scripts -/

omit [Scalar α] in
/-- What may stand before a call: nothing, or a word for the result, itself after one of three
words. -/
inductive IsBinding : List (Lexeme α) → Option String → Prop
  | none : IsBinding [] none
  | bare (bound : String) (m n : Nat) : IsBinding [wordAt bound m, mark .assign n] (some bound)
  | introduced {keyword : String} (bound : String) (l m n : Nat)
      (h : keyword = "let" ∨ keyword = "const" ∨ keyword = "var") :
      IsBinding [wordAt keyword l, wordAt bound m, mark .assign n] (some bound)

/-- A statement is a binding and the call of an operation, on the line of its first lexeme. -/
inductive IsStatement : List (Lexeme α) → Command α → Prop
  | call {front ts : List (Lexeme α)} {binding : Option String} {verb : String}
      {args : List (Arg α)} {kwargs : List (String × Arg α)} {line l m n : Nat}
      (hfront : IsBinding front binding) (hargs : Commas IsParameter ts (joined args kwargs))
      (hline : (front ++ [wordAt verb l]).head?.map Lexeme.line = some line) :
      IsStatement (front ++ wordAt verb l :: mark .leftParen m :: ts ++ [mark .rightParen n])
        ⟨line, binding, verb, args, kwargs⟩

omit [Scalar α] in
/-- Any number of separators. -/
def Separators (ts : List (Lexeme α)) : Prop := ∀ t ∈ ts, t.token = .separator

/-- One or more statements with at least one separator between any two of them. -/
inductive IsStatements : List (Lexeme α) → List (Command α) → Prop
  | one {ts : List (Lexeme α)} {c : Command α} (h : IsStatement ts c) : IsStatements ts [c]
  | more {ts seps us : List (Lexeme α)} {c : Command α} {cs : List (Command α)}
      (h : IsStatement ts c) (hseps : Separators seps) (hne : seps ≠ []) (hs : IsStatements us cs) :
      IsStatements (ts ++ seps ++ us) (c :: cs)

/-- **A script** is statements, or none, with separators before and after them, and the end. -/
inductive IsProgram : List (Lexeme α) → List (Command α) → Prop
  | empty {seps : List (Lexeme α)} {n : Nat} (h : Separators seps) :
      IsProgram (seps ++ [⟨.finish, n⟩]) []
  | statements {before ts after : List (Lexeme α)} {cs : List (Command α)} {n : Nat}
      (hbefore : Separators before) (hs : IsStatements ts cs) (hafter : Separators after) :
      IsProgram (before ++ ts ++ after ++ [⟨.finish, n⟩]) cs

end Straightedge.Script
