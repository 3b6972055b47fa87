import Straightedge.Proofs.Inversion
import Straightedge.Script.Lexer

/-! # Scanners and the ends of lines

The scanners of numbers and words stop where a line ends, and so does a single symbol. What is
changed there and below, the characters of the lines themselves staying as they are, does not concern
them: it stands in what they leave, and in nothing else. Only comments run up to the end of a line,
and only quoted texts may go beyond it.

* **`CutsOff`**: a text that no number and no word goes on into.
* **`TouchesLineEnds`**: a change of texts that leaves the characters of lines as they are.
* **`TouchesLineEnds.scanNumber_eq`**, **`TouchesLineEnds.scanWord_eq`**: such a change and the two
  scanners.
* **`TouchesLineEnds.piece_eq`**: such a change and a piece that is neither a comment nor quoted. -/

namespace Straightedge.Script

variable {α : Type}

/-! ## Where numbers and words stop -/

/-- The characters that a line ends with: those of a line break, and the mark of a comment. -/
def EndsLine (c : Char) : Prop := c = '\n' ∨ c = '\r' ∨ c = '#'

/-- **A text cuts off what stands before it**: it is empty or starts as a line ends. -/
def CutsOff (cs : List Char) : Prop := ∀ c ∈ cs.head?, EndsLine c

namespace CutsOff

variable {cs : List Char} (h : CutsOff cs)

theorem cons {c : Char} (hc : EndsLine c) (cs : List Char) : CutsOff (c :: cs) := by
  rintro d hd
  cases Option.mem_some_iff.1 hd
  exact hc

include h

/-- A run of characters that end no line does not go on. -/
theorem dropWhile_eq {p : Char → Bool} (hp : ∀ c, EndsLine c → p c = false) :
    cs.dropWhile p = cs := by
  cases cs with
  | nil => rfl
  | cons c cs => rw [List.dropWhile_cons, hp c (h c rfl), if_neg Bool.false_ne_true]

theorem takeWhile_eq {p : Char → Bool} (hp : ∀ c, EndsLine c → p c = false) :
    cs.takeWhile p = [] := by
  cases cs with
  | nil => rfl
  | cons c cs => rw [List.takeWhile_cons, hp c (h c rfl), if_neg Bool.false_ne_true]

/-- There is no sign. -/
theorem splitSign_eq : Decimal.splitSign cs = (none, cs) := by
  cases cs with
  | nil => rfl
  | cons c cs => rcases h c rfl with rfl | rfl | rfl <;> rfl

/-- There is no exponent. -/
theorem splitExponent_eq : Decimal.Exponent.split cs = (none, cs) := by
  cases cs with
  | nil => rfl
  | cons c cs => rcases h c rfl with rfl | rfl | rfl <;> rfl

/-- There is no point. -/
theorem splitFraction_eq : Decimal.Literal.splitFraction cs = (none, cs) := by
  cases cs with
  | nil => rfl
  | cons c cs => rcases h c rfl with rfl | rfl | rfl <;> rfl

end CutsOff

/-- No digit ends a line. -/
theorem isDigit_of_endsLine (c : Char) (h : EndsLine c) : c.isDigit = false := by
  rcases h with rfl | rfl | rfl <;> rfl

/-- No character of a word ends a line. -/
theorem continuesWord_of_endsLine (c : Char) (h : EndsLine c) : continuesWord c = false := by
  rcases h with rfl | rfl | rfl <;> decide +kernel

/-! ## Quoted texts -/

/-- A quoted text ends with its quote. -/
theorem scanQuoted_quote (quote : Char) (cs : List Char) :
    scanQuoted quote (quote :: cs) = some ([], cs) := by
  rw [scanQuoted.eq_def]
  exact if_pos rfl

/-- A line break leaves it open. -/
theorem scanQuoted_break {quote : Char} (hquote : '\n' ≠ quote) (cs : List Char) :
    scanQuoted quote ('\n' :: cs) = none := by
  rw [scanQuoted.eq_def]
  simp only [if_neg hquote, Char.reduceEq, if_false, if_true]

/-- After a backslash any character belongs to it. -/
theorem scanQuoted_escape {quote : Char} (hquote : '\\' ≠ quote) (e : Char) (cs : List Char) :
    scanQuoted quote ('\\' :: e :: cs) =
      (scanQuoted quote cs).map fun found => (unescape e :: found.1, found.2) := by
  rw [scanQuoted, if_neg hquote, if_pos rfl]

/-- So does every other character. -/
theorem scanQuoted_plain {quote c : Char} (hquote : c ≠ quote) (hescape : c ≠ '\\')
    (hbreak : c ≠ '\n') (cs : List Char) :
    scanQuoted quote (c :: cs) = (scanQuoted quote cs).map fun found => (c :: found.1, found.2) := by
  rw [scanQuoted.eq_def]
  simp only [if_neg hquote, if_neg hescape, if_neg hbreak]

/-! ## Pieces with a first character of their own -/

section

variable [Scalar α]

/-- A hash mark starts a comment. -/
theorem piece_of_mark (cs : List Char) :
    piece (α := α) '#' cs = .ok (.gap, cs.dropWhile staysOnLine) := rfl

/-- So do two slashes. -/
theorem piece_of_slashes (cs : List Char) :
    piece (α := α) '/' ('/' :: cs) = .ok (.gap, cs.dropWhile staysOnLine) := rfl

/-- A slash that no other slash follows is a symbol. -/
theorem piece_of_slash {cs : List Char} (h : ∀ rest, cs ≠ '/' :: rest) :
    piece (α := α) '/' cs = .ok (.token (.symbol .slash), cs) := by
  unfold piece
  rw [if_neg (by decide), if_neg (by decide), if_neg (by decide), if_pos rfl]
  split
  · exact absurd rfl (h _)
  · rfl

/-- At a quote there is a quoted text, or it is not closed. -/
theorem piece_at_quote {c : Char} (hc : c = '"' ∨ c = '\'') (cs : List Char) :
    piece (α := α) c cs = match scanQuoted c cs with
      | some (inside, rest) => .ok (.token (.quoted (String.ofList inside)), rest)
      | none => .error .unterminatedText := by
  have hne : c ≠ '\n' ∧ Text.isBlank c = false ∧ c ≠ '#' ∧ c ≠ '/' ∧ startsNumber c = false ∧
      startsWord c = false := by
    rcases hc with rfl | rfl <;> decide
  obtain ⟨hbreak, hblank, hmark, hslash, hnumber, hword⟩ := hne
  unfold piece
  exact (if_neg hbreak).trans <| (if_neg (ne_true_of_eq_false hblank)).trans <|
    (if_neg hmark).trans <| (if_neg hslash).trans <|
      (if_neg (ne_true_of_eq_false hnumber)).trans <|
        (if_neg (ne_true_of_eq_false hword)).trans (if_pos hc)

end

/-! ## Changes at the ends of lines -/

/-- **A change of texts touches ends of lines only**: it goes past every other character, and what it
makes of the end of a line, or of the whole text, cuts off what stands before it. -/
structure TouchesLineEnds (T : List Char → List Char) : Prop where
  cons : ∀ {c}, c ≠ '\n' → ∀ cs, T (c :: cs) = c :: T cs
  cutsOff_nil : CutsOff (T [])
  cutsOff_break : ∀ cs, CutsOff (T ('\n' :: cs))

namespace TouchesLineEnds

variable {T : List Char → List Char} (hT : TouchesLineEnds T)

include hT

/-- A text goes on with the same character, or it cuts off with and without the change. -/
theorem cases_head (cs : List Char) :
    (∃ c rest, cs = c :: rest ∧ T cs = c :: T rest) ∨ CutsOff cs ∧ CutsOff (T cs) := by
  cases cs with
  | nil => exact .inr ⟨nofun, hT.cutsOff_nil⟩
  | cons c cs =>
    by_cases hc : c = '\n'
    · subst hc
      exact .inr ⟨.cons (.inl rfl) cs, hT.cutsOff_break cs⟩
    · exact .inl ⟨c, cs, rfl, hT.cons hc cs⟩

/-- A run of characters that end no line is not changed. -/
theorem dropWhile_eq {p : Char → Bool} (hp : ∀ c, EndsLine c → p c = false) (cs : List Char) :
    (T cs).dropWhile p = T (cs.dropWhile p) := by
  induction cs with
  | nil => rw [hT.cutsOff_nil.dropWhile_eq hp, List.dropWhile_nil]
  | cons c cs ih =>
    rcases hT.cases_head (c :: cs) with ⟨_, _, heq, hcons⟩ | ⟨hcut, hcut'⟩
    · cases heq
      rw [hcons, List.dropWhile_cons, List.dropWhile_cons]
      cases p c with
      | true => exact ih
      | false => exact hcons.symm
    · rw [hcut'.dropWhile_eq hp, hcut.dropWhile_eq hp]

theorem takeWhile_eq {p : Char → Bool} (hp : ∀ c, EndsLine c → p c = false) (cs : List Char) :
    (T cs).takeWhile p = cs.takeWhile p := by
  induction cs with
  | nil => rw [hT.cutsOff_nil.takeWhile_eq hp, List.takeWhile_nil]
  | cons c cs ih =>
    rcases hT.cases_head (c :: cs) with ⟨_, _, heq, hcons⟩ | ⟨hcut, hcut'⟩
    · cases heq
      rw [hcons, List.takeWhile_cons, List.takeWhile_cons, ih]
    · rw [hcut'.takeWhile_eq hp, hcut.takeWhile_eq hp]

/-! ### Numbers and words -/

theorem splitSign_eq (cs : List Char) :
    Decimal.splitSign (T cs) = ((Decimal.splitSign cs).1, T (Decimal.splitSign cs).2) := by
  rcases hT.cases_head cs with ⟨c, rest, rfl, hcons⟩ | ⟨hcut, hcut'⟩
  · rw [hcons]
    unfold Decimal.splitSign
    split <;> simp_all
  · rw [hcut'.splitSign_eq, hcut.splitSign_eq]

theorem splitExponent_eq (cs : List Char) :
    Decimal.Exponent.split (T cs) =
      ((Decimal.Exponent.split cs).1, T (Decimal.Exponent.split cs).2) := by
  rcases hT.cases_head cs with ⟨c, rest, rfl, hcons⟩ | ⟨hcut, hcut'⟩
  · rw [hcons]
    unfold Decimal.Exponent.split
    by_cases hmark : c = 'e' ∨ c = 'E'
    · simp only [if_pos hmark, hT.splitSign_eq rest, hT.takeWhile_eq isDigit_of_endsLine,
        hT.dropWhile_eq isDigit_of_endsLine]
      -- without a digit nothing is taken
      cases (Decimal.splitSign rest).2.takeWhile Char.isDigit with
      | nil => rw [hcons]
      | cons d ds => rfl
    · simp only [if_neg hmark, hcons]
  · rw [hcut'.splitExponent_eq, hcut.splitExponent_eq]

theorem splitFraction_eq (cs : List Char) :
    Decimal.Literal.splitFraction (T cs) =
      ((Decimal.Literal.splitFraction cs).1, T (Decimal.Literal.splitFraction cs).2) := by
  rcases hT.cases_head cs with ⟨c, rest, rfl, hcons⟩ | ⟨hcut, hcut'⟩
  · rw [hcons]
    unfold Decimal.Literal.splitFraction
    by_cases hpoint : c = '.'
    · subst hpoint
      simp only [hT.takeWhile_eq isDigit_of_endsLine, hT.dropWhile_eq isDigit_of_endsLine]
    · split <;> simp_all
  · rw [hcut'.splitFraction_eq, hcut.splitFraction_eq]

/-- **The number at the front of a text is not changed.** -/
theorem scanNumber_eq [Scalar α] (cs : List Char) :
    scanNumber (α := α) (T cs) = (scanNumber cs).map fun found => (found.1, T found.2) := by
  have hsplit : Decimal.Literal.split (T cs) =
      ((Decimal.Literal.split cs).1, T (Decimal.Literal.split cs).2) := by
    simp only [Decimal.Literal.split, hT.takeWhile_eq isDigit_of_endsLine,
      hT.dropWhile_eq isDigit_of_endsLine, hT.splitFraction_eq, hT.splitExponent_eq]
  unfold scanNumber
  rw [hsplit]
  dsimp only
  split <;> rfl

/-- **Nor is the word.** -/
theorem scanWord_eq (cs : List Char) : scanWord (T cs) = ((scanWord cs).1, T (scanWord cs).2) := by
  rw [scanWord, hT.takeWhile_eq continuesWord_of_endsLine, hT.dropWhile_eq continuesWord_of_endsLine]
  rfl

/-! ### Pieces -/

variable [Scalar α]

/-- A slash without another one behind it is not changed. -/
theorem piece_slash_eq {cs : List Char} (h : ∀ rest, cs ≠ '/' :: rest) :
    piece (α := α) '/' (T cs) = .ok (.token (.symbol .slash), T cs) := by
  refine piece_of_slash fun rest => ?_
  rcases hT.cases_head cs with ⟨c, rest', rfl, hcons⟩ | ⟨-, hcut⟩
  · rw [hcons]
    rintro heq
    cases heq
    exact h _ rfl
  · rintro heq
    rw [heq] at hcut
    rcases hcut '/' rfl with h | h | h <;> cases h

/-- **A piece is not changed** unless it is a comment or quoted. -/
theorem piece_eq {c : Char} (hmark : c ≠ '#') (hslash : c ≠ '/') (hquote : ¬(c = '"' ∨ c = '\''))
    (cs : List Char) :
    piece (α := α) c (T cs) = (piece c cs).map fun found => (found.1, T found.2) := by
  unfold piece
  by_cases hbreak : c = '\n'
  · rw [if_pos hbreak, if_pos hbreak]
    rfl
  rw [if_neg hbreak, if_neg hbreak]
  by_cases hblank : Text.isBlank c = true
  · rw [if_pos hblank, if_pos hblank]
    rfl
  rw [if_neg hblank, if_neg hblank, if_neg hmark, if_neg hmark, if_neg hslash, if_neg hslash]
  by_cases hnumber : startsNumber c = true
  · rw [if_pos hnumber, if_pos hnumber, ← hT.cons hbreak, hT.scanNumber_eq]
    cases scanNumber (α := α) (c :: cs) <;> rfl
  rw [if_neg hnumber, if_neg hnumber]
  by_cases hword : startsWord c = true
  · rw [if_pos hword, if_pos hword, ← hT.cons hbreak, hT.scanWord_eq]
    rfl
  rw [if_neg hword, if_neg hword, if_neg hquote, if_neg hquote]
  by_cases hsemicolon : c = ';'
  · rw [if_pos hsemicolon, if_pos hsemicolon]
    rfl
  rw [if_neg hsemicolon, if_neg hsemicolon]
  cases Symbol.ofChar? c <;> rfl

end TouchesLineEnds

end Straightedge.Script
