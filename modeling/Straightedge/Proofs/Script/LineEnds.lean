import Mathlib.Data.List.TakeWhile
import Straightedge.Proofs.Script.Lines
import Straightedge.Proofs.Script.Scanners

/-! # Line ends

No piece of a script reaches over the end of its line, unless a backslash takes the line break into
a quoted text. So the pieces of a text stay the same whatever stands on the lines below it, and a
comment at its end takes nothing but itself.

* **`LineEnd`**: a line break, or a comment and a line break.
* **`piece_append`**: a piece in front of the end of a line.
* **`tokensFrom_append`**: the tokens of a text and of the lines below it. -/

namespace Straightedge.Script

variable {α : Type}

/-! ## Where a line ends -/

/-- **The end of a line and what is below**: a line break, or a comment up to one. -/
inductive LineEnd : List Char → List Char → Prop
  | bare (below : List Char) : LineEnd ('\n' :: below) below
  | comment {text : List Char} (htext : '\n' ∉ text) (below : List Char) :
      LineEnd ('#' :: (text ++ '\n' :: below)) below

namespace LineEnd

variable {tail below : List Char}

/-- Scanners stop at the end of a line. -/
theorem cutsOff (htail : LineEnd tail below) : CutsOff tail := by
  cases htail with
  | bare => exact .cons (.inl rfl) _
  | comment => exact .cons (.inr (.inr rfl)) _

/-- To put the end of a line behind a text changes nothing in it. -/
theorem touches (htail : LineEnd tail below) : TouchesLineEnds (· ++ tail) where
  cons := fun _ _ => rfl
  cutsOff_nil := htail.cutsOff
  cutsOff_break := fun _ => .cons (.inl rfl) _

/-- What stays on its line stops at the line break. -/
theorem dropWhile_staysOnLine (htail : LineEnd tail below) :
    tail.dropWhile staysOnLine = '\n' :: below := by
  cases htail with
  | bare => rfl
  | comment htext =>
    rename_i text
    have hall : ∀ c ∈ '#' :: text, staysOnLine c = true := by
      intro c hc
      have hne : c ≠ '\n' := by
        rintro rfl
        exact htext ((List.mem_cons.1 hc).resolve_left (by decide))
      simpa [staysOnLine] using hne
    rw [← List.cons_append, List.dropWhile_append_of_pos hall]
    rfl

/-- A comment in front of the end of a line ends there too, but takes the comment with it. -/
theorem dropWhile_comment (htail : LineEnd tail below) (cs : List Char) :
    (cs ++ tail).dropWhile staysOnLine = cs.dropWhile staysOnLine ++ tail ∨
      cs.dropWhile staysOnLine = [] ∧ (cs ++ tail).dropWhile staysOnLine = '\n' :: below := by
  rw [List.dropWhile_append]
  cases hdrop : cs.dropWhile staysOnLine with
  | nil => exact .inr ⟨rfl, htail.dropWhile_staysOnLine⟩
  | cons c rest => exact .inl rfl

end LineEnd

/-! ## Pieces in front of the end of a line -/

/-- A quoted text ends with its quote, whatever follows. -/
theorem scanQuoted_append {quote : Char} {cs inside rest : List Char}
    (h : scanQuoted quote cs = some (inside, rest)) (more : List Char) :
    scanQuoted quote (cs ++ more) = some (inside, rest ++ more) := by
  fun_induction scanQuoted quote cs generalizing inside rest with
  | case1 => cases h
  | case2 =>
    cases h
    rw [List.cons_append]
    unfold scanQuoted
    rw [if_pos rfl]
  | case3 => cases h
  | case4 e cs hquote ih =>
    obtain ⟨⟨_, _⟩, hcs, heq⟩ := Option.map_eq_some_iff.1 h
    cases heq
    rw [List.cons_append, List.cons_append, scanQuoted, if_neg hquote, if_pos rfl, ih hcs]
    rfl
  | case5 => cases h
  | case6 c cs hquote hescape hbreak ih =>
    obtain ⟨⟨_, _⟩, hcs, heq⟩ := Option.map_eq_some_iff.1 h
    cases heq
    rw [List.cons_append]
    unfold scanQuoted
    rw [if_neg hquote, if_neg hescape, if_neg hbreak, ih hcs]
    rfl

/-- **A piece in front of the end of a line is the piece that it is without it.** Only a comment at
the very end takes a comment behind it with it. -/
theorem piece_append [Scalar α] {tail below : List Char} (htail : LineEnd tail below) {c : Char}
    {cs rest : List Char} {p : Piece α} (h : piece c cs = .ok (p, rest)) :
    ∃ rest', piece c (cs ++ tail) = .ok (p, rest') ∧
      (rest' = rest ++ tail ∨ rest = [] ∧ rest' = '\n' :: below) := by
  by_cases hmark : c = '#'
  · subst hmark
    cases h
    exact ⟨_, piece_of_mark _, htail.dropWhile_comment cs⟩
  by_cases hslash : c = '/'
  · subst hslash
    by_cases hslashes : ∃ more, cs = '/' :: more
    · obtain ⟨more, rfl⟩ := hslashes
      cases h
      exact ⟨_, piece_of_slashes _, htail.dropWhile_comment more⟩
    · have hsingle : ∀ more, cs ≠ '/' :: more := fun more heq => hslashes ⟨more, heq⟩
      rw [piece_of_slash hsingle] at h
      cases h
      exact ⟨_, htail.touches.piece_slash_eq hsingle, .inl rfl⟩
  by_cases hquote : c = '"' ∨ c = '\''
  · rw [piece_at_quote hquote] at h ⊢
    cases hquoted : scanQuoted c cs with
    | none => rw [hquoted] at h; cases h
    | some found =>
      rw [hquoted] at h
      cases h
      rw [scanQuoted_append hquoted tail]
      exact ⟨_, rfl, .inl rfl⟩
  · have hchange := htail.touches.piece_eq (α := α) hmark hslash hquote cs
    rw [h] at hchange
    exact ⟨_, hchange, .inl rfl⟩

/-! ## Tokens of a text and of the lines below it -/

section Tokens

variable [Scalar α] {tail below : List Char}

/-- The end of a script is not a piece of it. -/
theorem token?_ne_finish_of_piece {c : Char} {cs rest : List Char} {p : Piece α}
    (h : piece c cs = .ok (p, rest)) : p.token? ≠ some .finish := by
  unfold piece at h
  split at h
  · cases h; exact nofun
  split at h
  · cases h; exact nofun
  split at h
  · cases h; exact nofun
  split at h
  · split at h
    · cases h; exact nofun
    · cases h; exact nofun
  split at h
  · obtain ⟨_, _, heq⟩ := map_eq_ok_iff.1 h
    cases heq; exact nofun
  split at h
  · cases h; exact nofun
  split at h
  · split at h
    · cases h; exact nofun
    · cases h
  split at h
  · cases h; exact nofun
  split at h
  · cases h; exact nofun
  · cases h

/-- In front of its line break the end of a line has no tokens. -/
theorem LineEnd.tokensFrom_eq (htail : LineEnd tail below) (n : Nat) :
    tokensFrom (α := α) n tail = tokensFrom n ('\n' :: below) := by
  have hdrop := htail.dropWhile_staysOnLine
  cases htail with
  | bare => rfl
  | comment htext =>
    rename_i text
    have hcomment : piece (α := α) '#' (text ++ '\n' :: below) =
        .ok (.gap, ('#' :: (text ++ '\n' :: below)).dropWhile staysOnLine) := rfl
    rw [tokensFrom_cons_of_ok hcomment, hdrop]
    show (tokensFrom n ('\n' :: below)).map ([] ++ ·) = _
    cases tokensFrom (α := α) n ('\n' :: below) <;> rfl

/-- **The tokens of a text and of the lines below it** are those of the text, with a separator in
place of its end, and those of the lines below, counted on. -/
theorem tokensFrom_append {n : Nat} {cs : List Char} {lexemes : List (Lexeme α)}
    (h : tokensFrom n cs = .ok lexemes) :
    ∃ front last, lexemes = front ++ [⟨.finish, last⟩] ∧ (∀ t ∈ front, t.token ≠ .finish) ∧
      ∀ {tail below}, LineEnd tail below → tokensFrom (α := α) n (cs ++ tail) =
        (tokensFrom (last + 1) below).map (front ++ ⟨.separator, last⟩ :: ·) := by
  obtain ⟨parts, hparts, rfl⟩ := tokensFrom_eq_ok_iff.1 h
  clear h
  induction hparts generalizing n with
  | nil =>
    refine ⟨[], n, rfl, nofun, fun {_ below} htail => ?_⟩
    have hbreak : piece (α := α) '\n' below = .ok (.lineBreak, below) := rfl
    rw [List.nil_append, htail.tokensFrom_eq, tokensFrom_cons_of_ok hbreak]
    rfl
  | cons hpiece htext hrest ih =>
    rename_i c cs text rest p parts
    obtain ⟨front, last, hparts, hfront, htokens⟩ := ih (n := n + p.lines)
    refine ⟨(p.token?.map (Lexeme.mk · n)).toList ++ front, last, ?_, ?_,
      fun {tail below} htail => ?_⟩
    · rw [numbered, Part.token?, hparts, List.append_assoc]
    · intro t ht
      rcases List.mem_append.1 ht with ht | ht
      · have hne := token?_ne_finish_of_piece hpiece
        obtain ⟨token, htoken, rfl⟩ := Option.map_eq_some_iff.1 (Option.mem_toList.1 ht)
        rintro rfl
        exact hne htoken
      · exact hfront t ht
    · obtain ⟨rest', hpiece', hrest'⟩ := piece_append htail hpiece
      -- the next pieces start behind this one, or at the line break if a comment reaches up to it
      have hnext : tokensFrom (n + p.lines) rest' =
          tokensFrom (α := α) (n + p.lines) (rest ++ tail) := by
        rcases hrest' with rfl | ⟨rfl, rfl⟩
        · rfl
        · exact (htail.tokensFrom_eq _).symm
      rw [List.cons_append, tokensFrom_cons_of_ok hpiece', hnext, htokens htail]
      cases tokensFrom (α := α) (last + 1) below with
      | error e => rfl
      | ok lexemes => exact congrArg Except.ok (List.append_assoc ..).symm

end Tokens

end Straightedge.Script
