import Straightedge.Decimal.Literal
import Straightedge.Text.Blank
import Straightedge.Text.Numeral
import Straightedge.Script.Malformation
import Straightedge.Script.Token

/-! # From text to tokens

A script is split from left to right into pieces: blanks, comments, line breaks and tokens. A
comment runs from `#` or `//` up to the next line break; a line break ends a statement and starts
the next line; every other piece stays on its line.

* **`scanQuoted`**, **`scanNumber`**, **`scanWord`**: the tokens with an inside.
* **`piece`**: the piece at the front of a text.
* **`tokenize`**: the tokens of a script with their lines.
* **`length_piece_le`**: what follows a piece is shorter than the text. -/

namespace Straightedge.Script

variable {α : Type}

/-- What stands at the front of a text. -/
inductive Piece (α : Type)
  /-- A blank or a comment. -/
  | gap
  /-- A line break. -/
  | lineBreak
  /-- A token. -/
  | token (t : Token α)

/-! ## Quoted texts -/

/-- What a character stands for after a backslash. -/
def unescape : Char → Char
  | 'n' => '\n'
  | 't' => '\t'
  | c => c

/-- The inside of a quoted text up to its closing `quote`, and what follows the quote. There is none
if a line break or the end comes first; after a backslash every character belongs to the text. -/
def scanQuoted (quote : Char) : List Char → Option (List Char × List Char)
  | [] => none
  | c :: cs =>
    if c = quote then some ([], cs)
    else if c = '\\' then
      match cs with
      | [] => none
      | e :: rest => (scanQuoted quote rest).map fun (inside, rest) => (unescape e :: inside, rest)
    else if c = '\n' then none
    else (scanQuoted quote cs).map fun (inside, rest) => (c :: inside, rest)

/-! ## Words and numbers -/

/-- Whether a character may start a word. -/
def startsWord (c : Char) : Bool := Text.isLetter c || c = '_'

/-- Whether a character may go on a word. -/
def continuesWord (c : Char) : Bool := Text.isLetterOrNumeral c || c = '_'

/-- The longest run of word characters, and what follows it. -/
def scanWord (cs : List Char) : String × List Char :=
  (String.ofList (cs.takeWhile continuesWord), cs.dropWhile continuesWord)

/-- Whether a character may start a number. -/
def startsNumber (c : Char) : Bool := c.isDigit || c = '.'

/-- The number at the front of a text, and what follows it. -/
def scanNumber [Scalar α] (cs : List Char) : Except Malformation (α × List Char) :=
  let (literal, rest) := Decimal.Literal.split cs
  if literal.isNumber then .ok (Scalar.ofDecimal literal.coefficient literal.scale, rest)
  else .error (.invalidNumber (String.ofList literal.text))

/-! ## Pieces -/

/-- Whether a character is not a line break. -/
def staysOnLine (c : Char) : Bool := c ≠ '\n'

/-- The piece that starts with `c` in the text `c :: cs`, and what follows it. -/
def piece [Scalar α] (c : Char) (cs : List Char) : Except Malformation (Piece α × List Char) :=
  if c = '\n' then .ok (.lineBreak, cs)
  else if Text.isBlank c then .ok (.gap, cs)
  else if c = '#' then .ok (.gap, cs.dropWhile staysOnLine)
  else if c = '/' then
    match cs with
    | '/' :: rest => .ok (.gap, rest.dropWhile staysOnLine)
    | rest => .ok (.token (.symbol .slash), rest)
  else if startsNumber c then
    (scanNumber (c :: cs)).map fun (value, rest) => (.token (.number value), rest)
  else if startsWord c then
    .ok (.token (.word (scanWord (c :: cs)).1), (scanWord (c :: cs)).2)
  else if c = '\x22' ∨ c = '\x27' then
    match scanQuoted c cs with
    | some (inside, rest) => .ok (.token (.quoted (String.ofList inside)), rest)
    | none => .error .unterminatedText
  else if c = ';' then .ok (.token .separator, cs)
  else
    match Symbol.ofChar? c with
    | some s => .ok (.token (.symbol s), cs)
    | none => .error (.unexpectedCharacter c)

/-! ## What follows a piece is shorter -/

theorem length_scanQuoted_le {quote : Char} {cs inside rest : List Char}
    (h : scanQuoted quote cs = some (inside, rest)) : rest.length ≤ cs.length := by
  fun_induction scanQuoted quote cs generalizing inside rest with
  | case1 => simp at h
  | case2 => simp_all
  | case3 => simp at h
  | case4 e more _ ih =>
    obtain ⟨⟨i, r⟩, hi, hr⟩ := Option.map_eq_some_iff.1 h
    have := ih hi
    simp only [Prod.mk.injEq] at hr
    simp only [List.length_cons, ← hr.2]
    omega
  | case5 => simp at h
  | case6 c cs _ _ _ ih =>
    obtain ⟨⟨i, r⟩, hi, hr⟩ := Option.map_eq_some_iff.1 h
    have := ih hi
    simp only [Prod.mk.injEq] at hr
    simp only [List.length_cons, ← hr.2]
    omega

theorem length_scanNumber_lt [Scalar α] {c : Char} {cs rest : List Char} {value : α}
    (hc : startsNumber c = true) (h : scanNumber (c :: cs) = .ok (value, rest)) :
    rest.length ≤ cs.length := by
  unfold scanNumber at h
  split at h
  rename_i literal after hsplit
  split at h
  · simp only [Except.ok.injEq, Prod.mk.injEq] at h
    rw [← h.2]
    rcases Bool.eq_false_or_eq_true c.isDigit with hd | hd
    · have h₁ := Decimal.Literal.length_split_le (c :: cs)
      rw [hsplit, List.dropWhile_cons_of_pos hd] at h₁
      exact Nat.le_trans h₁ (Decimal.Literal.length_dropWhile_le _ _)
    · have hdot : c = '.' := by simpa [startsNumber, hd] using hc
      subst hdot
      have h₂ := Decimal.Exponent.length_split_le (cs.dropWhile Char.isDigit)
      have h₃ := Decimal.Literal.length_dropWhile_le Char.isDigit cs
      simp only [Decimal.Literal.split, List.dropWhile_cons_of_neg (by simp : ¬ '.'.isDigit = true),
        Decimal.Literal.splitFraction, Prod.mk.injEq] at hsplit
      rw [← hsplit.2]
      exact Nat.le_trans h₂ h₃
  · simp at h

theorem length_scanWord_le {c : Char} {cs : List Char} (hc : startsWord c = true) :
    (scanWord (c :: cs)).2.length ≤ cs.length := by
  have h : continuesWord c = true := by
    simp only [startsWord, continuesWord, Text.isLetterOrNumeral, Bool.or_eq_true] at hc ⊢
    exact hc.imp Or.inl id
  simpa [scanWord, List.dropWhile_cons_of_pos h] using Decimal.Literal.length_dropWhile_le _ cs

/-- What follows a piece is shorter than the text it was taken from. -/
theorem length_piece_le [Scalar α] {c : Char} {cs rest : List Char} {p : Piece α}
    (h : piece c cs = .ok (p, rest)) : rest.length ≤ cs.length := by
  unfold piece at h
  split at h
  · simp_all
  split at h
  · simp_all
  split at h
  · simp only [Except.ok.injEq, Prod.mk.injEq] at h
    rw [← h.2]
    exact Decimal.Literal.length_dropWhile_le _ _
  split at h
  · split at h
    · rename_i more
      simp only [Except.ok.injEq, Prod.mk.injEq] at h
      rw [← h.2]
      exact Nat.le_trans (Decimal.Literal.length_dropWhile_le _ _) (Nat.le_succ _)
    · simp_all
  split at h
  · rename_i hnum
    cases hs : scanNumber (α := α) (c :: cs) with
    | error m => simp [hs, Except.map] at h
    | ok r =>
      obtain ⟨value, after⟩ := r
      simp only [hs, Except.map, Except.ok.injEq, Prod.mk.injEq] at h
      rw [← h.2]
      exact length_scanNumber_lt hnum hs
  split at h
  · rename_i hword
    simp only [Except.ok.injEq, Prod.mk.injEq] at h
    rw [← h.2]
    exact length_scanWord_le hword
  split at h
  · split at h
    · rename_i inside after hq
      simp only [Except.ok.injEq, Prod.mk.injEq] at h
      rw [← h.2]
      exact length_scanQuoted_le hq
    · simp at h
  split at h
  · simp_all
  split at h
  · simp_all
  · simp at h

/-! ## Tokens -/

/-- The tokens of a text that starts on the given line. -/
def tokensFrom [Scalar α] (line : Nat) : List Char → Except ParseError (List (Lexeme α))
  | [] => .ok [⟨.finish, line⟩]
  | c :: cs =>
    match _h : piece c cs with
    | .error cause => .error ⟨line, cause⟩
    | .ok (.gap, rest) => tokensFrom line rest
    | .ok (.lineBreak, rest) =>
      match tokensFrom (line + 1) rest with
      | .error e => .error e
      | .ok lexemes => .ok (⟨.separator, line⟩ :: lexemes)
    | .ok (.token t, rest) =>
      match tokensFrom line rest with
      | .error e => .error e
      | .ok lexemes => .ok (⟨t, line⟩ :: lexemes)
termination_by cs => cs.length
decreasing_by
  all_goals
    have := length_piece_le _h
    simp only [List.length_cons]
    omega

/-- The tokens of a script, the last of them its end. -/
def tokenize [Scalar α] (source : String) : Except ParseError (List (Lexeme α)) :=
  tokensFrom 1 source.toList

end Straightedge.Script
