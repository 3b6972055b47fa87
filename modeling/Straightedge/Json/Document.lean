import Straightedge.Decimal.Literal

/-! # Reading JSON

The structure of a JSON text, before its numbers and texts are given a meaning. Fields of an object
keep their order and may repeat a key; a text with an unpaired surrogate has no characters but is
well-formed.

* **`NumberToken`**: a number in digits.
* **`Document`**: the structure of a JSON text.
* **`Document.parse?`**: reads a JSON text. -/

namespace Straightedge

/-! ## Numbers -/

/-- A number as JSON writes it. -/
structure NumberToken where
  /-- Whether a minus sign stands before it. -/
  negative : Bool
  /-- Its digits. -/
  literal : Decimal.Literal

/-- The structure of a JSON text. -/
inductive Document
  | null
  | bool (value : Bool)
  | number (token : NumberToken)
  /-- A text; it has no characters if it holds an unpaired surrogate. -/
  | text (characters : Option (List Char))
  | list (items : List Document)
  | object (fields : List (Option (List Char) × Document))
  deriving Inhabited

namespace Document

/-- A value that was read, and the characters after it, fewer than `bound`. -/
structure Taken (β : Type) (bound : Nat) where
  /-- The value. -/
  value : β
  /-- The characters not yet read. -/
  rest : List Char
  /-- There are fewer of them than the bound. -/
  length_lt : rest.length < bound

/-- The blanks of JSON. -/
def isBlank (c : Char) : Bool := c = ' ' || c = '\t' || c = '\n' || c = '\r'

/-- The characters after the blanks at the front. -/
def skipBlanks (cs : List Char) : List Char := cs.dropWhile isBlank

theorem length_skipBlanks_le (cs : List Char) : (skipBlanks cs).length ≤ cs.length :=
  Decimal.Literal.length_dropWhile_le isBlank cs

/-- Whether digits form the whole part of a number: one digit, or several of which the first is not
zero. -/
def isWholePart : List Char → Bool
  | [] => false
  | [_] => true
  | first :: _ => first ≠ '0'

/-- Whether a literal is written as JSON wants it: a whole part, and digits after a point. -/
def isJsonNumber (l : Decimal.Literal) : Bool :=
  isWholePart l.whole && l.fraction ≠ some []

/-- The number at the front of a text without its sign; an exponent mark without digits is refused. -/
def unsignedNumber? (cs : List Char) : Option (Decimal.Literal × List Char) :=
  let (l, rest) := Decimal.Literal.split cs
  match rest with
  | 'e' :: _ => none
  | 'E' :: _ => none
  | rest => if isJsonNumber l then some (l, rest) else none

/-! ## Texts -/

/-- A character of a text, or a 16-bit unit written in hexadecimal digits. -/
inductive TextPiece
  | char (c : Char)
  | unit (n : Nat)

/-- The value of a hexadecimal digit. -/
def hexValue? (c : Char) : Option Nat :=
  if '0' ≤ c ∧ c ≤ '9' then some (c.toNat - '0'.toNat)
  else if 'a' ≤ c ∧ c ≤ 'f' then some (c.toNat - 'a'.toNat + 10)
  else if 'A' ≤ c ∧ c ≤ 'F' then some (c.toNat - 'A'.toNat + 10)
  else none

/-- The value of four hexadecimal digits. -/
def hexUnit? (a b c d : Char) : Option Nat := do
  return (((← hexValue? a) * 16 + (← hexValue? b)) * 16 + (← hexValue? c)) * 16 + (← hexValue? d)

/-- What a single letter stands for after a backslash. -/
def shortEscape? : Char → Option Char
  | '\x22' => some '\x22'
  | '\\' => some '\\'
  | '/' => some '/'
  | 'b' => some '\x08'
  | 'f' => some '\x0c'
  | 'n' => some '\n'
  | 'r' => some '\r'
  | 't' => some '\t'
  | _ => none

/-- The pieces of a text up to its closing quote, and what follows the quote. Control characters have
to be escaped. -/
def scanText : List Char → Option (List TextPiece × List Char)
  | [] => none
  | '\x22' :: rest => some ([], rest)
  | '\\' :: 'u' :: a :: b :: c :: d :: rest => do
    let n ← hexUnit? a b c d
    let (pieces, rest) ← scanText rest
    return (.unit n :: pieces, rest)
  | '\\' :: e :: rest => do
    let c ← shortEscape? e
    let (pieces, rest) ← scanText rest
    return (.char c :: pieces, rest)
  | c :: rest =>
    if c.toNat < 32 ∨ c = '\\' then none
    else do
      let (pieces, rest) ← scanText rest
      return (.char c :: pieces, rest)

/-- Whether a unit is the first half of a surrogate pair. -/
def isLeading (n : Nat) : Bool := 0xD800 ≤ n && n < 0xDC00

/-- Whether a unit is the second half of a surrogate pair. -/
def isTrailing (n : Nat) : Bool := 0xDC00 ≤ n && n < 0xE000

/-- The characters of a text; none if a surrogate is unpaired. -/
def characters? : List TextPiece → Option (List Char)
  | [] => some []
  | .char c :: rest => (characters? rest).map (c :: ·)
  | .unit n :: rest =>
    if isLeading n then
      match rest with
      | .unit m :: more =>
        if isTrailing m then
          (characters? more).map (Char.ofNat (0x10000 + (n - 0xD800) * 0x400 + (m - 0xDC00)) :: ·)
        else none
      | _ => none
    else if isTrailing n then none
    else (characters? rest).map (Char.ofNat n :: ·)

theorem length_scanText_lt {cs rest : List Char} {pieces : List TextPiece}
    (h : scanText cs = some (pieces, rest)) : rest.length < cs.length := by
  fun_induction scanText cs generalizing rest pieces with
  | case1 => simp at h
  | case2 => simp_all
  | case3 a b c d more ih =>
    simp only [Option.bind_eq_bind, Option.bind_eq_some_iff, Option.pure_def, Option.some.injEq,
      Prod.mk.injEq, Prod.exists] at h
    obtain ⟨_, _, _, _, hs, _, rfl⟩ := h
    have := ih hs
    simp only [List.length_cons]
    omega
  | case4 e more _ ih =>
    simp only [Option.bind_eq_bind, Option.bind_eq_some_iff, Option.pure_def, Option.some.injEq,
      Prod.mk.injEq, Prod.exists] at h
    obtain ⟨_, _, _, _, hs, _, rfl⟩ := h
    have := ih hs
    simp only [List.length_cons]
    omega
  | case5 => simp at h
  | case6 c more _ _ _ _ ih =>
    simp only [Option.bind_eq_bind, Option.bind_eq_some_iff, Option.pure_def, Option.some.injEq,
      Prod.mk.injEq, Prod.exists] at h
    obtain ⟨_, _, hs, _, rfl⟩ := h
    have := ih hs
    simp only [List.length_cons]
    omega

/-- Reads a text after its opening quote. -/
def readText (cs : List Char) : Option (Taken (Option (List Char)) cs.length) :=
  match h : scanText cs with
  | some (pieces, rest) => some ⟨characters? pieces, rest, length_scanText_lt h⟩
  | none => none

/-- Reads a number after the sign, if it has one. -/
def readNumber (negative : Bool) (cs : List Char) : Option (Taken Document cs.length) :=
  match unsignedNumber? cs with
  | some (l, rest) =>
    if h : rest.length < cs.length then some ⟨.number ⟨negative, l⟩, rest, h⟩ else none
  | none => none

/-! ## Values -/

mutual

/-- Reads a value; blanks may stand before it. -/
def readValue (cs : List Char) : Option (Taken Document cs.length) :=
  have hs := length_skipBlanks_le cs
  match _h : skipBlanks cs with
  | 'n' :: 'u' :: 'l' :: 'l' :: rest =>
    some ⟨.null, rest, by simp only [_h, List.length_cons] at hs; omega⟩
  | 't' :: 'r' :: 'u' :: 'e' :: rest =>
    some ⟨.bool true, rest, by simp only [_h, List.length_cons] at hs; omega⟩
  | 'f' :: 'a' :: 'l' :: 's' :: 'e' :: rest =>
    some ⟨.bool false, rest, by simp only [_h, List.length_cons] at hs; omega⟩
  | '\x22' :: rest => do
    let t ← readText rest
    return ⟨.text t.value, t.rest, by
      have := t.length_lt; simp only [_h, List.length_cons] at hs; omega⟩
  | '[' :: rest => do
    let items ← readItems true rest
    return ⟨.list items.value, items.rest, by
      have := items.length_lt; simp only [_h, List.length_cons] at hs; omega⟩
  | '\x7b' :: rest => do
    let fields ← readFields true rest
    return ⟨.object fields.value, fields.rest, by
      have := fields.length_lt; simp only [_h, List.length_cons] at hs; omega⟩
  | '-' :: rest => do
    let n ← readNumber true rest
    return ⟨n.value, n.rest, by
      have := n.length_lt; simp only [_h, List.length_cons] at hs; omega⟩
  | other => do
    let n ← readNumber false other
    return ⟨n.value, n.rest, by have := n.length_lt; rw [_h] at hs; omega⟩
termination_by (cs.length, 0)
decreasing_by
  all_goals
    apply Prod.Lex.left
    have hs := length_skipBlanks_le cs
    simp only [_h, List.length_cons] at hs
    omega

/-- Reads items up to the closing bracket; only a list without items may end at once. -/
def readItems (mayEnd : Bool) (cs : List Char) : Option (Taken (List Document) cs.length) :=
  have hs := length_skipBlanks_le cs
  match _h : skipBlanks cs with
  | ']' :: rest =>
    if mayEnd then some ⟨[], rest, by simp only [_h, List.length_cons] at hs; omega⟩ else none
  | _ => do
    let first ← readValue cs
    have hf := length_skipBlanks_le first.rest
    match _h' : skipBlanks first.rest with
    | ',' :: rest => do
      let more ← readItems false rest
      return ⟨first.value :: more.value, more.rest, by
        have := first.length_lt; have := more.length_lt
        simp only [_h', List.length_cons] at hf; omega⟩
    | ']' :: rest =>
      return ⟨[first.value], rest, by
        have := first.length_lt; simp only [_h', List.length_cons] at hf; omega⟩
    | _ => none
termination_by (cs.length, 1)
decreasing_by
  · exact Prod.Lex.right _ (by decide)
  · apply Prod.Lex.left
    have := first.length_lt
    have hf := length_skipBlanks_le first.rest
    simp only [_h', List.length_cons] at hf
    omega

/-- Reads fields up to the closing brace; only an object without fields may end at once. -/
def readFields (mayEnd : Bool) (cs : List Char) :
    Option (Taken (List (Option (List Char) × Document)) cs.length) :=
  have hs := length_skipBlanks_le cs
  match _h : skipBlanks cs with
  | '\x7d' :: rest =>
    if mayEnd then some ⟨[], rest, by simp only [_h, List.length_cons] at hs; omega⟩ else none
  | '\x22' :: rest => do
    let key ← readText rest
    have hk := length_skipBlanks_le key.rest
    match _hc : skipBlanks key.rest with
    | ':' :: afterColon => do
      let first ← readValue afterColon
      have hf := length_skipBlanks_le first.rest
      match _h' : skipBlanks first.rest with
      | ',' :: rest' => do
        let more ← readFields false rest'
        return ⟨(key.value, first.value) :: more.value, more.rest, by
          have := key.length_lt; have := first.length_lt; have := more.length_lt
          simp only [_h, List.length_cons] at hs
          simp only [_hc, List.length_cons] at hk
          simp only [_h', List.length_cons] at hf
          omega⟩
      | '\x7d' :: rest' =>
        return ⟨[(key.value, first.value)], rest', by
          have := key.length_lt; have := first.length_lt
          simp only [_h, List.length_cons] at hs
          simp only [_hc, List.length_cons] at hk
          simp only [_h', List.length_cons] at hf
          omega⟩
      | _ => none
    | _ => none
  | _ => none
termination_by (cs.length, 0)
decreasing_by
  · apply Prod.Lex.left
    have := key.length_lt
    have hs := length_skipBlanks_le cs
    have hk := length_skipBlanks_le key.rest
    simp only [_h, List.length_cons] at hs
    simp only [_hc, List.length_cons] at hk
    omega
  · apply Prod.Lex.left
    have := key.length_lt
    have := first.length_lt
    have hs := length_skipBlanks_le cs
    have hk := length_skipBlanks_le key.rest
    have hf := length_skipBlanks_le first.rest
    simp only [_h, List.length_cons] at hs
    simp only [_hc, List.length_cons] at hk
    simp only [_h', List.length_cons] at hf
    omega

end

/-- The structure of a JSON text: one value with blanks around it. -/
def parse? (cs : List Char) : Option Document := do
  let document ← readValue cs
  if (skipBlanks document.rest).isEmpty then some document.value else none

end Document

end Straightedge
