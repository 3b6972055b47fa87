import Mathlib.Algebra.GroupWithZero.Nat
import Mathlib.Data.List.TakeWhile
import Straightedge.Binary64
import Straightedge.Proofs.Inversion
import Straightedge.Script.Lexer

/-! # Lines of tokens

The line of a token is counted in one place only, at the line breaks between statements. The other
pieces of a script have to stay on their line for that. All do except for one: a backslash takes a
line break into a quoted text.

* **`Part`**, **`Splits`**: a script split into pieces with the texts that spell them.
* **`Spells`**: where line breaks can be in such a text.
* **`tokensFrom_eq_ok_iff`**: tokens are the pieces of a text, numbered by its bare line breaks.
* **`OnLines`**: every token has the number of the line that it starts on.
* **`exists_splits_of_tokenize`**: by how much a line can be wrong, and when all are right. -/

namespace Straightedge.Script

variable {α : Type}

/-! ## Parts of a script -/

/-- The token of a piece; a line break ends a statement. -/
def Piece.token? : Piece α → Option (Token α)
  | .gap => none
  | .lineBreak => some .separator
  | .token t => some t

/-- By how much a piece advances the line. -/
def Piece.lines : Piece α → Nat
  | .lineBreak => 1
  | _ => 0

/-- A piece of a script and the text that spells it. -/
structure Part (α : Type) where
  /-- The piece. -/
  piece : Piece α
  /-- Its text. -/
  text : List Char

namespace Part

/-- The token of a part. -/
def token? (part : Part α) : Option (Token α) := part.piece.token?

/-- The line breaks inside a token, which are not counted. -/
def hidden (part : Part α) : Nat :=
  match part.piece with
  | .token _ => part.text.count '\n'
  | _ => 0

end Part

/-- A text split into its pieces from left to right. -/
inductive Splits [Scalar α] : List Char → List (Part α) → Prop
  | nil : Splits [] []
  | cons {c : Char} {cs text rest : List Char} {p : Piece α} {parts : List (Part α)}
      (hpiece : piece c cs = .ok (p, rest)) (htext : c :: cs = text ++ rest)
      (hrest : Splits rest parts) : Splits (c :: cs) (⟨p, text⟩ :: parts)

/-- The parts of a text make up the text. -/
theorem Splits.flatMap_text [Scalar α] {cs : List Char} {parts : List (Part α)}
    (h : Splits cs parts) : parts.flatMap Part.text = cs := by
  induction h with
  | nil => rfl
  | cons _ htext _ ih => rw [List.flatMap_cons, ih, htext]

/-! ## Texts on one line -/

/-- A text goes on with `rest` on the same line. -/
def SameLine (cs rest : List Char) : Prop := ∃ text, cs = text ++ rest ∧ '\n' ∉ text

namespace SameLine

theorem refl (cs : List Char) : SameLine cs cs := ⟨[], rfl, List.not_mem_nil⟩

theorem trans {cs more rest : List Char} (h : SameLine cs more) (h' : SameLine more rest) :
    SameLine cs rest := by
  obtain ⟨first, rfl, hfirst⟩ := h
  obtain ⟨second, rfl, hsecond⟩ := h'
  exact ⟨first ++ second, (List.append_assoc ..).symm, by simp [hfirst, hsecond]⟩

theorem cons {c : Char} (hc : c ≠ '\n') (cs : List Char) : SameLine (c :: cs) cs :=
  ⟨[c], rfl, by simpa using hc.symm⟩

/-- Characters that are not line breaks may be skipped. -/
theorem dropWhile {p : Char → Bool} (hp : p '\n' = false) (cs : List Char) :
    SameLine cs (cs.dropWhile p) := by
  refine ⟨cs.takeWhile p, List.takeWhile_append_dropWhile.symm, fun hmem => ?_⟩
  rw [List.mem_takeWhile_imp hmem] at hp
  cases hp

end SameLine

/-! ## What the scanners take -/

section Scanners

open Decimal

theorem sameLine_splitSign (cs : List Char) : SameLine cs (splitSign cs).2 := by
  unfold splitSign
  split
  · exact .cons (by decide) _
  · exact .cons (by decide) _
  · exact .refl _

theorem sameLine_splitExponent (cs : List Char) : SameLine cs (Exponent.split cs).2 := by
  unfold Exponent.split
  split
  · rename_i c rest
    split
    · rename_i hmark
      have hc : c ≠ '\n' := by rcases hmark with rfl | rfl <;> decide
      have hsign := sameLine_splitSign rest
      split
      rename_i sign after hafter
      rw [hafter] at hsign
      split
      · exact .refl _
      · exact ((SameLine.cons hc rest).trans hsign).trans (.dropWhile (by decide) after)
    · exact .refl _
  · exact .refl _

theorem sameLine_splitFraction (cs : List Char) : SameLine cs (Literal.splitFraction cs).2 := by
  unfold Literal.splitFraction
  split
  · exact (SameLine.cons (by decide) _).trans (.dropWhile (by decide) _)
  · exact .refl _

/-- A number stays on its line. -/
theorem sameLine_scanNumber [Scalar α] {cs rest : List Char} {value : α}
    (h : scanNumber cs = .ok (value, rest)) : SameLine cs rest := by
  have hsplit : SameLine cs (Literal.split cs).2 :=
    ((SameLine.dropWhile (by decide) cs).trans (sameLine_splitFraction _)).trans
      (sameLine_splitExponent _)
  unfold scanNumber at h
  split at h
  rename_i literal after hafter
  rw [hafter] at hsplit
  split at h
  · cases h
    exact hsplit
  · cases h

/-- A word stays on its line. -/
theorem sameLine_scanWord (cs : List Char) : SameLine cs (scanWord cs).2 :=
  .dropWhile (by decide +kernel) cs

/-- **A quoted text leaves its line only behind a backslash.** -/
theorem exists_text_of_scanQuoted {quote : Char} (hquote : quote ≠ '\n')
    {cs inside rest : List Char} (h : scanQuoted quote cs = some (inside, rest)) :
    ∃ text, cs = text ++ rest ∧ ('\n' ∈ text → ['\\', '\n'] <:+: text) := by
  fun_induction scanQuoted quote cs generalizing inside rest with
  | case1 => cases h
  | case2 =>
    -- the closing quote
    cases h
    exact ⟨[quote], rfl, fun hmem => absurd (List.mem_singleton.1 hmem).symm hquote⟩
  | case3 => cases h
  | case4 e more _ ih =>
    -- a backslash and the character behind it
    obtain ⟨⟨_, _⟩, hmore, heq⟩ := Option.map_eq_some_iff.1 h
    cases heq
    obtain ⟨text, rfl, htext⟩ := ih hmore
    refine ⟨'\\' :: e :: text, rfl, fun hmem => ?_⟩
    rcases List.mem_cons.1 ((List.mem_cons.1 hmem).resolve_left (by decide)) with rfl | hmem
    · exact ⟨[], text, rfl⟩
    · exact (htext hmem).trans ((List.suffix_append ['\\', e] text).isInfix)
  | case5 => cases h
  | case6 c cs _ _ hc ih =>
    obtain ⟨⟨_, _⟩, hcs, heq⟩ := Option.map_eq_some_iff.1 h
    cases heq
    obtain ⟨text, rfl, htext⟩ := ih hcs
    refine ⟨c :: text, rfl, fun hmem => ?_⟩
    have hmem := (List.mem_cons.1 hmem).resolve_left (Ne.symm hc)
    exact (htext hmem).trans (List.suffix_cons c text).isInfix

end Scanners

/-- **Where line breaks can be in the text of a piece**: a line break is one, a quoted text may have
some behind backslashes, and no other piece has any. -/
inductive Spells : Piece α → List Char → Prop
  | gap {text : List Char} (h : '\n' ∉ text) : Spells .gap text
  | lineBreak : Spells .lineBreak ['\n']
  | quoted {inside : String} {text : List Char} (h : '\n' ∈ text → ['\\', '\n'] <:+: text) :
      Spells (.token (.quoted inside)) text
  | plain {t : Token α} {text : List Char} (h : '\n' ∉ text) : Spells (.token t) text

/-- What a piece is taken from is spelled accordingly. -/
theorem exists_spells_of_piece [Scalar α] {c : Char} {cs rest : List Char} {p : Piece α}
    (h : piece c cs = .ok (p, rest)) : ∃ text, c :: cs = text ++ rest ∧ Spells p text := by
  have hgap : SameLine (c :: cs) rest → ∃ text, c :: cs = text ++ rest ∧
      Spells (.gap : Piece α) text := fun ⟨text, htext, hline⟩ => ⟨text, htext, .gap hline⟩
  have hplain : ∀ t : Token α, SameLine (c :: cs) rest → ∃ text, c :: cs = text ++ rest ∧
      Spells (.token t) text := fun t ⟨text, htext, hline⟩ => ⟨text, htext, .plain hline⟩
  unfold piece at h
  split at h
  · rename_i hc
    cases h
    exact ⟨['\n'], by rw [hc]; rfl, .lineBreak⟩
  rename_i hc
  have hfirst := SameLine.cons hc cs
  split at h
  · cases h
    exact hgap hfirst
  split at h
  · cases h
    exact hgap (hfirst.trans (.dropWhile (by decide) cs))
  split at h
  · split at h
    · cases h
      exact hgap (hfirst.trans ((SameLine.cons (by decide) _).trans (.dropWhile (by decide) _)))
    · cases h
      exact hplain _ hfirst
  split at h
  · cases hnumber : scanNumber (α := α) (c :: cs) with
    | error cause => rw [hnumber] at h; cases h
    | ok found =>
      rw [hnumber] at h
      cases h
      exact hplain _ (sameLine_scanNumber hnumber)
  split at h
  · cases h
    exact hplain _ (sameLine_scanWord (c :: cs))
  split at h
  · split at h
    · rename_i inside after hquoted
      cases h
      obtain ⟨text, rfl, htext⟩ := exists_text_of_scanQuoted hc hquoted
      refine ⟨c :: text, rfl, .quoted fun hmem => ?_⟩
      have hmem := (List.mem_cons.1 hmem).resolve_left (Ne.symm hc)
      exact (htext hmem).trans (List.suffix_cons c text).isInfix
    · cases h
  split at h
  · cases h
    exact hplain _ hfirst
  split at h
  · cases h
    exact hplain _ hfirst
  · cases h

/-- The line breaks of a part are counted or hidden. -/
theorem Spells.lines_add_hidden {part : Part α} (h : Spells part.piece part.text) :
    part.piece.lines + part.hidden = part.text.count '\n' := by
  obtain ⟨p, text⟩ := part
  cases h with
  | gap h => simp [Piece.lines, Part.hidden, List.count_eq_zero_of_not_mem h]
  | lineBreak => rfl
  | quoted h => simp [Piece.lines, Part.hidden]
  | plain h => simp [Piece.lines, Part.hidden]

/-- Line breaks are hidden in quoted texts only, behind backslashes. -/
theorem Spells.quoted_of_hidden {part : Part α} (h : Spells part.piece part.text)
    (hhidden : part.hidden ≠ 0) :
    (∃ inside, part.piece = .token (.quoted inside)) ∧ ['\\', '\n'] <:+: part.text := by
  obtain ⟨p, text⟩ := part
  cases h with
  | gap h => exact absurd rfl hhidden
  | lineBreak => exact absurd rfl hhidden
  | quoted h => exact ⟨⟨_, rfl⟩, h (List.count_pos_iff.1 (Nat.pos_of_ne_zero hhidden))⟩
  | plain h => exact absurd (List.count_eq_zero_of_not_mem h) hhidden

theorem Splits.spells [Scalar α] {cs : List Char} {parts : List (Part α)} (h : Splits cs parts) :
    ∀ part ∈ parts, Spells part.piece part.text := by
  induction h with
  | nil => exact List.forall_mem_nil _
  | cons hpiece htext _ ih =>
    refine List.forall_mem_cons.2 ⟨?_, ih⟩
    obtain ⟨text, htext', hspells⟩ := exists_spells_of_piece hpiece
    rwa [List.append_cancel_right (htext.symm.trans htext')]

/-! ## Tokens with their lines -/

/-- The tokens of parts, with lines from `n` on. -/
def numbered : Nat → List (Part α) → List (Lexeme α)
  | n, [] => [⟨.finish, n⟩]
  | n, part :: parts =>
    (part.token?.map (Lexeme.mk · n)).toList ++ numbered (n + part.piece.lines) parts

variable [Scalar α]

/-- The tokens of a text are those of its first piece and of what follows it. -/
theorem tokensFrom_cons_of_ok {c : Char} {cs rest : List Char} {p : Piece α}
    (h : piece c cs = .ok (p, rest)) (n : Nat) :
    tokensFrom n (c :: cs) = (tokensFrom (n + p.lines) rest).map
      ((p.token?.map (Lexeme.mk · n)).toList ++ ·) := by
  rw [tokensFrom]
  split
  · rename_i hpiece
    cases h.symm.trans hpiece
  · rename_i hpiece
    cases h.symm.trans hpiece
    show _ = (tokensFrom n rest).map ([] ++ ·)
    cases tokensFrom (α := α) n rest <;> rfl
  · rename_i hpiece
    cases h.symm.trans hpiece
    show _ = (tokensFrom (n + 1) rest).map ([⟨.separator, n⟩] ++ ·)
    cases tokensFrom (α := α) (n + 1) rest <;> rfl
  · rename_i t _ hpiece
    cases h.symm.trans hpiece
    show _ = (tokensFrom n rest).map ([⟨t, n⟩] ++ ·)
    cases tokensFrom (α := α) n rest <;> rfl

/-- A text that does not start with a piece has no tokens. -/
theorem tokensFrom_cons_of_error {c : Char} {cs : List Char} {cause : Malformation}
    (h : piece (α := α) c cs = .error cause) (n : Nat) :
    tokensFrom (α := α) n (c :: cs) = .error ⟨n, cause⟩ := by
  rw [tokensFrom]
  split
  · rename_i hpiece
    cases h.symm.trans hpiece
    rfl
  · rename_i hpiece
    cases h.symm.trans hpiece
  · rename_i hpiece
    cases h.symm.trans hpiece
  · rename_i hpiece
    cases h.symm.trans hpiece

/-- **Tokens are the pieces of a text, numbered by its bare line breaks.** -/
theorem tokensFrom_eq_ok_iff {n : Nat} {cs : List Char} {lexemes : List (Lexeme α)} :
    tokensFrom n cs = .ok lexemes ↔ ∃ parts, Splits cs parts ∧ lexemes = numbered n parts := by
  constructor
  · intro h
    -- what follows a piece is shorter
    induction hlength : cs.length using Nat.strong_induction_on generalizing n cs lexemes with
    | _ length ih =>
      cases cs with
      | nil =>
        rw [tokensFrom] at h
        cases h
        exact ⟨[], .nil, rfl⟩
      | cons c cs =>
        cases hpiece : piece (α := α) c cs with
        | error cause =>
          rw [tokensFrom_cons_of_error hpiece] at h
          cases h
        | ok found =>
          obtain ⟨p, rest⟩ := found
          rw [tokensFrom_cons_of_ok hpiece] at h
          have hshorter : rest.length < length := by
            rw [← hlength, List.length_cons]
            exact Nat.lt_succ_of_le (length_piece_le hpiece)
          cases hrest : tokensFrom (α := α) (n + p.lines) rest with
          | error e => rw [hrest] at h; cases h
          | ok later =>
            rw [hrest] at h
            cases h
            obtain ⟨parts, hparts, rfl⟩ := ih rest.length hshorter hrest rfl
            obtain ⟨text, htext, -⟩ := exists_spells_of_piece hpiece
            exact ⟨⟨p, text⟩ :: parts, .cons hpiece htext hparts, rfl⟩
  · rintro ⟨parts, hparts, rfl⟩
    induction hparts generalizing n with
    | nil => rw [tokensFrom]; rfl
    | cons hpiece _ _ ih => rw [tokensFrom_cons_of_ok hpiece, ih]; rfl

/-! ## Right lines -/

omit [Scalar α]

theorem map_token_numbered (n : Nat) (parts : List (Part α)) :
    (numbered n parts).map Lexeme.token = parts.filterMap Part.token? ++ [.finish] := by
  induction parts generalizing n with
  | nil => rfl
  | cons part parts ih =>
    rw [numbered, List.map_append, ih, List.filterMap_cons]
    cases part.token? <;> rfl

/-- The token that comes next behind the first parts of a script. -/
def nextToken? (lexemes : List (Lexeme α)) (earlier : List (Part α)) : Option (Lexeme α) :=
  lexemes[(earlier.filterMap Part.token?).length]?

/-- The first of numbered tokens has the first number: gaps in front of it advance no line. -/
theorem nextToken?_numbered_nil (n : Nat) (parts : List (Part α)) :
    ∃ lexeme, nextToken? (numbered n parts) [] = some lexeme ∧ lexeme.line = n := by
  induction parts with
  | nil => exact ⟨_, rfl, rfl⟩
  | cons part parts ih =>
    obtain ⟨p, text⟩ := part
    cases p with
    | gap => exact ih
    | lineBreak => exact ⟨_, rfl, rfl⟩
    | token t => exact ⟨_, rfl, rfl⟩

/-- Wherever a script is cut, the next token has the number of lines counted before the cut. -/
theorem nextToken?_numbered (n : Nat) (earlier later : List (Part α)) :
    ∃ lexeme, nextToken? (numbered n (earlier ++ later)) earlier = some lexeme ∧
      lexeme.line = n + (earlier.map fun part => part.piece.lines).sum := by
  induction earlier generalizing n with
  | nil => exact nextToken?_numbered_nil n later
  | cons part earlier ih =>
    obtain ⟨lexeme, hlexeme, hline⟩ := ih (n + part.piece.lines)
    refine ⟨lexeme, ?_, by rw [hline, List.map_cons, List.sum_cons, Nat.add_assoc]⟩
    rw [nextToken?, List.cons_append, numbered, List.filterMap_cons]
    cases part.token? with
    | none => exact hlexeme
    | some t => exact hlexeme

section

variable {parts : List (Part α)}

/-- The line breaks of parts are counted or hidden. -/
theorem sum_lines_add_sum_hidden (h : ∀ part ∈ parts, Spells part.piece part.text) :
    (parts.map fun part => part.piece.lines).sum + (parts.map Part.hidden).sum =
      (parts.flatMap Part.text).count '\n' := by
  induction parts with
  | nil => rfl
  | cons part parts ih =>
    rw [List.forall_mem_cons] at h
    rw [List.flatMap_cons, List.count_append, ← h.1.lines_add_hidden, ← ih h.2]
    simp only [List.map_cons, List.sum_cons]
    omega

/-- Wherever a script is cut, the next token has the number of line breaks before the cut, less the
hidden ones. -/
theorem line_nextToken?_numbered (h : ∀ part ∈ parts, Spells part.piece part.text)
    {earlier later : List (Part α)} (hcut : parts = earlier ++ later) :
    ∃ lexeme, nextToken? (numbered 1 parts) earlier = some lexeme ∧
      lexeme.line + (earlier.map Part.hidden).sum = 1 + (earlier.flatMap Part.text).count '\n' := by
  subst hcut
  obtain ⟨lexeme, hlexeme, hline⟩ := nextToken?_numbered 1 earlier later
  refine ⟨lexeme, hlexeme, ?_⟩
  rw [hline, Nat.add_assoc, sum_lines_add_sum_hidden fun part hpart =>
    h part (List.mem_append_left later hpart)]

/-- **Every token is on the line that it starts on**: wherever a script is cut into parts, the line
of the next token is one more than the line breaks before the cut. -/
def OnLines (parts : List (Part α)) (lexemes : List (Lexeme α)) : Prop :=
  ∀ earlier later, parts = earlier ++ later → ∃ lexeme, nextToken? lexemes earlier = some lexeme ∧
    lexeme.line = 1 + (earlier.flatMap Part.text).count '\n'

/-- Lines are right exactly if no line break is hidden. -/
theorem onLines_numbered_iff (h : ∀ part ∈ parts, Spells part.piece part.text) :
    OnLines parts (numbered 1 parts) ↔ ∀ part ∈ parts, part.hidden = 0 := by
  constructor
  · intro hright part hpart
    obtain ⟨earlier, later, rfl⟩ := List.append_of_mem hpart
    -- behind the part the line falls short by what it hides
    have hcut : earlier ++ part :: later = (earlier ++ [part]) ++ later := by simp
    obtain ⟨lexeme, hlexeme, hline⟩ := line_nextToken?_numbered h hcut
    obtain ⟨_, hlexeme', hline'⟩ := hright _ _ hcut
    cases hlexeme.symm.trans hlexeme'
    simp only [List.map_append, List.sum_append, List.map_cons, List.sum_cons] at hline
    omega
  · intro hzero earlier later hcut
    obtain ⟨lexeme, hlexeme, hline⟩ := line_nextToken?_numbered h hcut
    have hsum : (earlier.map Part.hidden).sum = 0 := by
      rw [List.sum_eq_zero_iff_forall_eq_nat]
      intro k hk
      obtain ⟨part, hpart, rfl⟩ := List.mem_map.1 hk
      exact hzero part (hcut ▸ List.mem_append_left later hpart)
    exact ⟨lexeme, hlexeme, by rw [← hline, hsum, Nat.add_zero]⟩

end

/-- **The line of a token falls short by the line breaks that quoted texts before it hide.** So all
tokens are on their lines exactly if no quoted text hides a line break, and this takes a backslash
directly before a line break. -/
theorem exists_splits_of_tokenize [Scalar α] {source : String} {lexemes : List (Lexeme α)}
    (h : tokenize source = .ok lexemes) :
    ∃ parts : List (Part α), Splits source.toList parts ∧
      parts.flatMap Part.text = source.toList ∧
      lexemes.map Lexeme.token = parts.filterMap Part.token? ++ [.finish] ∧
      (∀ earlier later, parts = earlier ++ later →
        ∃ lexeme, nextToken? lexemes earlier = some lexeme ∧
          lexeme.line + (earlier.map Part.hidden).sum =
            1 + (earlier.flatMap Part.text).count '\n') ∧
      (∀ part ∈ parts, part.hidden ≠ 0 →
        (∃ inside, part.piece = .token (.quoted inside)) ∧ ['\\', '\n'] <:+: part.text) ∧
      (OnLines parts lexemes ↔ ∀ part ∈ parts, part.hidden = 0) ∧
      (¬['\\', '\n'] <:+: source.toList → OnLines parts lexemes) := by
  obtain ⟨parts, hparts, rfl⟩ := tokensFrom_eq_ok_iff.1 h
  have hspells := hparts.spells
  have hright := onLines_numbered_iff hspells
  have hhidden : ∀ part ∈ parts, part.hidden ≠ 0 →
      (∃ inside, part.piece = .token (.quoted inside)) ∧ ['\\', '\n'] <:+: part.text :=
    fun part hpart => (hspells part hpart).quoted_of_hidden
  refine ⟨parts, hparts, hparts.flatMap_text, map_token_numbered 1 parts,
    fun _ _ hcut => line_nextToken?_numbered hspells hcut, hhidden, hright, fun hsource => ?_⟩
  refine hright.2 fun part hpart => ?_
  by_contra hne
  -- a part with a hidden line break stands in the source
  refine hsource ((hhidden part hpart hne).2.trans ?_)
  rw [← hparts.flatMap_text, List.flatMap_def]
  exact List.infix_of_mem_flatten (List.mem_map_of_mem hpart)

/-- Two words on two lines are split into parts with the right lines. -/
theorem exists_splits_of_two_words :
    let source := "a\nb"
    let lexemes : List (Lexeme Float) :=
      [⟨.word "a", 1⟩, ⟨.separator, 1⟩, ⟨.word "b", 2⟩, ⟨.finish, 2⟩]
    tokenize source = .ok lexemes ∧
      ∃ parts, Splits source.toList parts ∧ OnLines parts lexemes := by
  intro source lexemes
  have hsource : source.toList = ['a', '\n', 'b'] := by decide
  have hfirst : piece (α := Float) 'a' ['\n', 'b'] = .ok (.token (.word "a"), ['\n', 'b']) := by rfl
  have hbreak : piece (α := Float) '\n' ['b'] = .ok (.lineBreak, ['b']) := rfl
  have hsecond : piece (α := Float) 'b' [] = .ok (.token (.word "b"), []) := by rfl
  have htokens : tokenize source = .ok lexemes := by
    rw [tokenize, hsource, tokensFrom_cons_of_ok hfirst, tokensFrom_cons_of_ok hbreak,
      tokensFrom_cons_of_ok hsecond, tokensFrom]
    rfl
  obtain ⟨parts, hparts, -, -, -, -, -, hright⟩ := exists_splits_of_tokenize htokens
  exact ⟨htokens, parts, hparts, hright (by rw [hsource]; decide)⟩

/-- The word behind a quoted text with an escaped line break is on the second line, not on the first
one. -/
theorem not_onLines_of_escaped_break :
    let source := "'\\\n'a"
    let parts : List (Part Float) :=
      [⟨.token (.quoted "\n"), ['\'', '\\', '\n', '\'']⟩, ⟨.token (.word "a"), ['a']⟩]
    let lexemes : List (Lexeme Float) := [⟨.quoted "\n", 1⟩, ⟨.word "a", 1⟩, ⟨.finish, 1⟩]
    tokenize source = .ok lexemes ∧ Splits source.toList parts ∧ ¬OnLines parts lexemes := by
  intro source parts lexemes
  have hquoted : piece (α := Float) '\'' ['\\', '\n', '\'', 'a'] =
      .ok (.token (.quoted "\n"), ['a']) := by
    rfl
  have hword : piece (α := Float) 'a' [] = .ok (.token (.word "a"), []) := by
    rfl
  have hrest : Splits ['a'] [⟨.token (.word "a"), ['a']⟩] := .cons hword rfl .nil
  have hparts : Splits source.toList parts := by
    rw [show source.toList = ['\'', '\\', '\n', '\'', 'a'] by decide]
    exact .cons hquoted rfl hrest
  refine ⟨tokensFrom_eq_ok_iff.2 ⟨parts, hparts, rfl⟩, hparts, fun hright => ?_⟩
  have hzero := (onLines_numbered_iff hparts.spells).1 hright _ (List.mem_cons_self ..)
  exact absurd hzero (by decide)

end Straightedge.Script
