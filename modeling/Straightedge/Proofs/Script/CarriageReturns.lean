import Straightedge.Proofs.Script.Lines
import Straightedge.Proofs.Script.Scanners
import Straightedge.Script.Parser

/-! # Carriage returns

Some programs end a line with a carriage return and a line break. To a script the carriage return is
a blank in front of the line break, wherever on its line it stands: between two tokens, in a comment,
behind a slash or behind a number that an exponent might have followed. In a quoted text it could make
a difference, but only a backslash takes a line break into one.

* **`withReturns`**: a text with a carriage return before each line break.
* **`scanQuoted_withReturns`**, **`piece_withReturns`**: a scanner and a piece of such a text.
* **`tokensFrom_withReturns`**: its tokens.
* **`tokenize_withReturns`**: scripts with either ends of lines are the same. -/

namespace Straightedge.Script

variable {α : Type}

/-- The text with a carriage return before each line break. -/
def withReturns (cs : List Char) : List Char :=
  cs.flatMap fun c => if c = '\n' then ['\r', '\n'] else [c]

@[simp] theorem withReturns_nil : withReturns [] = [] := rfl

theorem withReturns_break (cs : List Char) :
    withReturns ('\n' :: cs) = '\r' :: '\n' :: withReturns cs := rfl

theorem withReturns_cons {c : Char} (hc : c ≠ '\n') (cs : List Char) :
    withReturns (c :: cs) = c :: withReturns cs := by
  rw [withReturns, List.flatMap_cons, if_neg hc]
  rfl

/-- Carriage returns change nothing but the ends of lines. -/
theorem touchesLineEnds_withReturns : TouchesLineEnds withReturns where
  cons := fun hc cs => withReturns_cons hc cs
  cutsOff_nil := nofun
  cutsOff_break := fun _ => .cons (.inr (.inl rfl)) _

/-! ## Comments and quoted texts -/

/-- What stays on its line goes on over a carriage return up to the line break. -/
theorem dropWhile_staysOnLine_withReturns (cs : List Char) :
    (withReturns cs).dropWhile staysOnLine = withReturns (cs.dropWhile staysOnLine) ∨
      '\r' :: (withReturns cs).dropWhile staysOnLine = withReturns (cs.dropWhile staysOnLine) := by
  induction cs with
  | nil => exact .inl rfl
  | cons c cs ih =>
    by_cases hc : c = '\n'
    · subst hc
      exact .inr rfl
    · have hstays : staysOnLine c = true := by simpa [staysOnLine] using hc
      rw [withReturns_cons hc, List.dropWhile_cons_of_pos hstays, List.dropWhile_cons_of_pos hstays]
      exact ih

/-- **A quoted text is not changed** if no backslash takes a line break into it. -/
theorem scanQuoted_withReturns {quote : Char} (hbreak : '\n' ≠ quote) (hreturn : '\r' ≠ quote)
    {cs : List Char} (hcs : ¬['\\', '\n'] <:+: cs) :
    scanQuoted quote (withReturns cs) =
      (scanQuoted quote cs).map fun found => (found.1, withReturns found.2) := by
  fun_induction scanQuoted quote cs with
  | case1 => rfl
  | case2 cs =>
    rw [withReturns_cons (Ne.symm hbreak), scanQuoted_quote]
    rfl
  | case3 hquote =>
    rw [withReturns_cons (by decide), withReturns_nil, scanQuoted, if_neg hquote, if_pos rfl]
    rfl
  | case4 e rest hquote ih =>
    have he : e ≠ '\n' := by
      rintro rfl
      exact hcs ⟨[], rest, rfl⟩
    have hrest : ¬['\\', '\n'] <:+: rest := fun h =>
      hcs (h.trans (List.suffix_append ['\\', e] rest).isInfix)
    rw [withReturns_cons (by decide), withReturns_cons he, scanQuoted_escape hquote, ih hrest,
      Option.map_map, Option.map_map]
    rfl
  | case5 cs =>
    -- the scanner goes over the carriage return and stops at the line break
    rw [withReturns_break, scanQuoted_plain hreturn (by decide) (by decide),
      scanQuoted_break hbreak]
    rfl
  | case6 c cs hquote hescape hc ih =>
    have hrest : ¬['\\', '\n'] <:+: cs := fun h => hcs (h.trans (List.suffix_cons c cs).isInfix)
    rw [withReturns_cons hc, scanQuoted_plain hquote hescape hc, ih hrest, Option.map_map,
      Option.map_map]
    rfl

/-- Behind a backslash a line break belongs to a quoted text, and so does the carriage return in place
of it, which leaves the line break to end the text. -/
example : scanQuoted '\'' "\\\n'".toList = some (['\n'], []) ∧
    scanQuoted '\'' (withReturns "\\\n'".toList) = none := by
  decide +kernel

/-! ## Pieces -/

variable [Scalar α]

/-- **A piece is the same with carriage returns**, and so is what follows it, but for a carriage
return that a comment takes. -/
theorem piece_withReturns {c : Char} {cs : List Char} (hcs : ¬['\\', '\n'] <:+: cs) :
    (∃ cause, piece (α := α) c cs = .error cause ∧ piece (α := α) c (withReturns cs) = .error cause) ∨
      ∃ p rest rest', piece (α := α) c cs = .ok (p, rest) ∧
        piece c (withReturns cs) = .ok (p, rest') ∧
        (rest' = withReturns rest ∨ '\r' :: rest' = withReturns rest) := by
  have hT := touchesLineEnds_withReturns
  by_cases hmark : c = '#'
  · subst hmark
    exact .inr ⟨_, _, _, piece_of_mark cs, piece_of_mark _, dropWhile_staysOnLine_withReturns cs⟩
  by_cases hslash : c = '/'
  · subst hslash
    by_cases hslashes : ∃ more, cs = '/' :: more
    · obtain ⟨more, rfl⟩ := hslashes
      rw [withReturns_cons (by decide)]
      exact .inr ⟨_, _, _, piece_of_slashes more, piece_of_slashes _,
        dropWhile_staysOnLine_withReturns more⟩
    · have hsingle : ∀ more, cs ≠ '/' :: more := fun more heq => hslashes ⟨more, heq⟩
      exact .inr ⟨_, _, _, piece_of_slash hsingle, hT.piece_slash_eq hsingle, .inl rfl⟩
  by_cases hquote : c = '"' ∨ c = '\''
  · have hbreak : '\n' ≠ c := by rcases hquote with rfl | rfl <;> decide
    have hreturn : '\r' ≠ c := by rcases hquote with rfl | rfl <;> decide
    rw [piece_at_quote hquote, piece_at_quote hquote, scanQuoted_withReturns hbreak hreturn hcs]
    cases scanQuoted c cs with
    | none => exact .inl ⟨_, rfl, rfl⟩
    | some found => exact .inr ⟨_, _, _, rfl, rfl, .inl rfl⟩
  · rw [hT.piece_eq hmark hslash hquote]
    cases piece (α := α) c cs with
    | error cause => exact .inl ⟨_, rfl, rfl⟩
    | ok found => exact .inr ⟨_, _, _, rfl, rfl, .inl rfl⟩

/-! ## Tokens -/

/-- In front of any text a carriage return is a blank. -/
theorem tokensFrom_return (n : Nat) (cs : List Char) :
    tokensFrom (α := α) n ('\r' :: cs) = tokensFrom n cs := by
  have hblank : piece (α := α) '\r' cs = .ok (.gap, cs) := rfl
  rw [tokensFrom_cons_of_ok hblank]
  show (tokensFrom n cs).map ([] ++ ·) = _
  cases tokensFrom (α := α) n cs <;> rfl

/-- **A text has the same tokens on the same lines with carriage returns**, or the same fault on the
same line. -/
theorem tokensFrom_withReturns (n : Nat) {cs : List Char} (hcs : ¬['\\', '\n'] <:+: cs) :
    tokensFrom (α := α) n (withReturns cs) = tokensFrom n cs := by
  -- what follows a piece is shorter
  induction hlength : cs.length using Nat.strong_induction_on generalizing n cs with
  | _ length ih =>
    cases cs with
    | nil => rfl
    | cons c cs =>
      have hrest : ¬['\\', '\n'] <:+: cs := fun h => hcs (h.trans (List.suffix_cons c cs).isInfix)
      by_cases hc : c = '\n'
      · subst hc
        have hbreak (cs : List Char) : piece (α := α) '\n' cs = .ok (.lineBreak, cs) := rfl
        rw [withReturns_break, tokensFrom_return, tokensFrom_cons_of_ok (hbreak _),
          tokensFrom_cons_of_ok (hbreak _), ih cs.length (hlength ▸ Nat.lt_succ_self _) _ hrest rfl]
      rw [withReturns_cons hc]
      rcases piece_withReturns (α := α) (c := c) hrest with
        ⟨cause, herror, herror'⟩ | ⟨p, rest, rest', hpiece, hpiece', hfollows⟩
      · rw [tokensFrom_cons_of_error herror, tokensFrom_cons_of_error herror']
      · -- no backslash takes a line break of the rest
        obtain ⟨text, htext, -⟩ := exists_spells_of_piece hpiece
        have hcs' : ¬['\\', '\n'] <:+: rest := fun h =>
          hcs (h.trans (htext ▸ (List.suffix_append text rest).isInfix))
        have hlt : rest.length < length := by
          have := length_piece_le hpiece
          rw [← hlength, List.length_cons]
          omega
        have hnext : tokensFrom (α := α) (n + p.lines) rest' = tokensFrom (n + p.lines) rest := by
          rw [← ih rest.length hlt (n + p.lines) hcs' rfl]
          rcases hfollows with rfl | hreturn
          · rfl
          · rw [← hreturn, tokensFrom_return]
        rw [tokensFrom_cons_of_ok hpiece, tokensFrom_cons_of_ok hpiece', hnext]

/-- **Scripts with carriage returns are the same scripts.** If no backslash stands directly before a
line break, a carriage return before each line break changes neither the tokens of a script and their
lines nor its fault and the line of it, whichever there is; nor does it change the commands. -/
theorem tokenize_withReturns [Numeral α] {source : String}
    (h : ¬['\\', '\n'] <:+: source.toList) :
    tokenize (α := α) (String.ofList (withReturns source.toList)) = tokenize source ∧
      parse (α := α) (String.ofList (withReturns source.toList)) = parse source := by
  have htokens : tokenize (α := α) (String.ofList (withReturns source.toList)) = tokenize source := by
    rw [tokenize, String.toList_ofList, tokensFrom_withReturns 1 h, tokenize]
  exact ⟨htokens, by rw [parse, htokens, parse]⟩

/-- A comment, a slash, a number before an `e` and a quoted text that is not closed, each at the end of
its line. -/
theorem tokenize_withReturns_of_line_ends :
    let source := "A('x\\'y') // b\n/\n1e\n'open\n"
    ¬['\\', '\n'] <:+: source.toList ∧
      tokenize (α := Float) "A('x\\'y') // b\r\n/\r\n1e\r\n'open\r\n" = tokenize source := by
  intro source
  have hsource : ¬['\\', '\n'] <:+: source.toList := by decide +kernel
  have hreturns : String.ofList (withReturns source.toList) =
      "A('x\\'y') // b\r\n/\r\n1e\r\n'open\r\n" := by decide +kernel
  exact ⟨hsource, hreturns ▸ (tokenize_withReturns (α := Float) hsource).1⟩

end Straightedge.Script
