import Straightedge.Proofs.Script.Lines
import Straightedge.Proofs.Script.Relations

/-! # Other line numbers

No reader looks at the line of a lexeme but to report it. On lexemes whose lines are counted in
another way every reader answers the same, with its lines counted in that way.

* **`Lexeme.renumber`**, **`Command.renumber`**, **`ParseError.renumber`**: other line numbers.
* **`readAlike_renumber`**: no reader tells lexemes with other line numbers apart.
* **`commands_renumber`**, **`parseLexemes_renumber`**: the commands of a script.
* **`tokensFrom_add`**: the tokens of a text that starts on a later line. -/

namespace Straightedge.Script

variable {α β : Type}

/-! ## Line numbers -/

/-- A lexeme with another line number. -/
def Lexeme.renumber (f : Nat → Nat) (t : Lexeme α) : Lexeme α := { t with line := f t.line }

/-- A command with another line number. -/
def Command.renumber (f : Nat → Nat) (c : Command α) : Command α := { c with line := f c.line }

/-- An error with another line number. -/
def ParseError.renumber (f : Nat → Nat) (e : ParseError) : ParseError := { e with line := f e.line }

variable (f : Nat → Nat)

@[simp] theorem Lexeme.renumber_mk (t : Token α) (n : Nat) :
    Lexeme.renumber f ⟨t, n⟩ = ⟨t, f n⟩ := rfl

@[simp] theorem ParseError.renumber_mk (n : Nat) (cause : Malformation) :
    ParseError.renumber f ⟨n, cause⟩ = ⟨f n, cause⟩ := rfl

@[simp] theorem current_renumber (ts : List (Lexeme α)) :
    current (ts.map (Lexeme.renumber f)) = current ts := by
  cases ts <;> rfl

theorem lineOf_renumber (lastLine : Nat) (ts : List (Lexeme α)) :
    lineOf (f lastLine) (ts.map (Lexeme.renumber f)) = f (lineOf lastLine ts) := by
  cases ts <;> rfl

theorem skipSeparators_renumber (ts : List (Lexeme α)) :
    skipSeparators (ts.map (Lexeme.renumber f)) = (skipSeparators ts).map (Lexeme.renumber f) := by
  simp only [skipSeparators, List.dropWhile_map]
  rfl

/-- A list with other line numbers, or the error in its place. -/
def renumberAnswer (f : Nat → Nat) (g : β → β) :
    Except ParseError (List β) → Except ParseError (List β)
  | .ok xs => .ok (xs.map g)
  | .error e => .error (e.renumber f)

/-! ## Scripts -/

variable [Numeral α] (lastLine : Nat)

/-- **Lexemes with other line numbers are read alike**, and errors get their line numbers. -/
theorem readAlike_renumber :
    ReadAlike (α := α) (fun ts us => us = ts.map (Lexeme.renumber f))
      (fun e e' => e' = e.renumber f) lastLine (f lastLine) where
  nil h := h
  cons h := ⟨_, _, h, fun _ => rfl⟩
  error h _ := by rw [h, lineOf_renumber, ParseError.renumber_mk]
  noNumber h := by
    rw [h, current_renumber, ← List.map_tail, lineOf_renumber, ParseError.renumber_mk]

variable [Scalar α] {f lastLine}

/-- **Every script is read alike**, by induction on the lexemes that are left. -/
theorem commands_renumber (ts : List (Lexeme α)) :
    commands (f lastLine) (ts.map (Lexeme.renumber f)) =
      renumberAnswer f (Command.renumber f) (commands lastLine ts) := by
  have hfirst := alike_statement (readAlike_renumber f lastLine)
    (rfl : _ = (skipSeparators ts).map _)
  have hcurrent : current (skipSeparators (ts.map (Lexeme.renumber f))) =
      current (skipSeparators ts) := by
    rw [skipSeparators_renumber, current_renumber]
  rw [← skipSeparators_renumber] at hfirst
  cases hfinish : (current (skipSeparators ts)).isFinish with
  | true => rw [commands_of_finish hfinish, commands_of_finish (by rw [hcurrent, hfinish])]; rfl
  | false =>
    have hfinish' : (current (skipSeparators (ts.map (Lexeme.renumber f)))).isFinish = false := by
      rw [hcurrent, hfinish]
    cases hstatement : statement lastLine (skipSeparators ts) with
    | error e =>
      obtain ⟨_, hstatement', rfl⟩ := hfirst.exists_error hstatement
      rw [commands_of_error hfinish hstatement, commands_of_error hfinish' hstatement']
      rfl
    | ok read =>
      obtain ⟨c, rest, hrest⟩ := read
      have hreads : Reads (statement lastLine (skipSeparators ts)) c rest := ⟨hrest, hstatement⟩
      have hlt : rest.length < ts.length :=
        Nat.lt_of_lt_of_le hrest (length_skipSeparators_le ts)
      obtain ⟨_, hreads', rfl⟩ := hfirst.reads hreads
      rw [skipSeparators_renumber, lineOf_renumber, ← line_of_reads_statement hreads,
        ← skipSeparators_renumber] at hreads'
      rw [commands_of_reads hfinish hreads, commands_of_reads hfinish' hreads', current_renumber]
      split
      · rw [commands_renumber rest]
        cases commands lastLine rest <;> rfl
      · rw [unexpected, unexpected, lineOf_renumber, current_renumber]
        rfl
termination_by ts.length

/-- The last line is counted like the others, so no script is read in another way. -/
theorem parseLexemes_renumber (f : Nat → Nat) {ts : List (Lexeme α)} (hts : ts ≠ []) :
    parseLexemes (ts.map (Lexeme.renumber f)) =
      renumberAnswer f (Command.renumber f) (parseLexemes ts) := by
  have hlast : lastLineOf (ts.map (Lexeme.renumber f)) = f (lastLineOf ts) := by
    rw [lastLineOf, lastLineOf, List.getLast?_map, List.getLast?_eq_some_getLast hts]
    rfl
  rw [parseLexemes, parseLexemes, hlast, commands_renumber]

/-! ## Tokens -/

omit [Numeral α] in
/-- **A text that starts on a later line** has its tokens, or its error, on later lines. -/
theorem tokensFrom_add (n k : Nat) (cs : List Char) :
    tokensFrom (α := α) (n + k) cs =
      renumberAnswer (· + k) (Lexeme.renumber (· + k)) (tokensFrom n cs) := by
  -- what follows a piece is shorter
  match cs with
  | [] =>
    rw [tokensFrom, tokensFrom]
    rfl
  | c :: cs =>
    cases hpiece : piece (α := α) c cs with
    | error cause =>
      rw [tokensFrom_cons_of_error hpiece, tokensFrom_cons_of_error hpiece]
      rfl
    | ok found =>
      obtain ⟨p, rest⟩ := found
      have hlength := length_piece_le hpiece
      have hrest := tokensFrom_add (n + p.lines) k rest
      rw [Nat.add_right_comm] at hrest
      rw [tokensFrom_cons_of_ok hpiece, tokensFrom_cons_of_ok hpiece, hrest]
      cases tokensFrom (α := α) (n + p.lines) rest with
      | error e => rfl
      | ok lexemes => cases p <;> rfl
termination_by cs.length

end Straightedge.Script
