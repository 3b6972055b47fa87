import Straightedge.Proofs.Script.Completeness
import Straightedge.Proofs.Script.LineEnds
import Straightedge.Proofs.Script.Renumbering

/-! # Scripts below each other

A script of its own and the lines below it are one script: its commands are those of the two parts,
and the lines below are counted on. A comment at the end of the upper part changes nothing.

* **`commands_below`**: the commands of lexemes behind a script.
* **`parse_append`**: the commands of a source below a script. -/

namespace Straightedge.Script

variable {α : Type} [Scalar α] [Numeral α]

/-! ## Lexemes -/

/-- **Behind the statements of a script**, with a separator in place of its end, the commands go
on with those of the other lexemes. -/
theorem commands_below {front : List (Lexeme α)} (hfront : ∀ t ∈ front, t.token ≠ .finish)
    {last lastLine : Nat} {cs : List (Command α)}
    (h : commands lastLine (front ++ [⟨.finish, last⟩]) = .ok cs) (lastLine' m : Nat)
    (below : List (Lexeme α)) :
    commands lastLine' (front ++ ⟨.separator, m⟩ :: below) =
      (commands lastLine' below).map (cs ++ ·) := by
  have hseparator : Separators [(⟨.separator, m⟩ : Lexeme α)] := by
    rintro t ht
    rw [List.mem_singleton.1 ht]
  have hbelow : commands lastLine' (⟨.separator, m⟩ :: below) = commands lastLine' below :=
    commands_separators_append lastLine' hseparator below
  -- either there are only separators, or there are statements between separators
  have hprogram := isProgram_of_commands ⟨front, last, rfl, hfront⟩ h
  generalize hall : front ++ [⟨.finish, last⟩] = all at hprogram
  cases hprogram with
  | empty hseps =>
    obtain ⟨rfl, -⟩ := List.append_inj' hall rfl
    rw [commands_separators_append lastLine' hseps, hbelow]
    cases commands lastLine' below <;> rfl
  | statements hbefore hs hafter =>
    obtain ⟨rfl, -⟩ := List.append_inj' hall rfl
    rw [List.append_assoc, commands_append hbefore hs (endsStatement_append hafter rfl),
      commands_separators_append lastLine' hafter, hbelow]

section

omit [Scalar α] [Numeral α]

/-- The last line of lexemes is that of the last of them. -/
theorem lastLineOf_append (front : List (Lexeme α)) {ts : List (Lexeme α)} (hts : ts ≠ []) :
    lastLineOf (front ++ ts) = lastLineOf ts := by
  rw [lastLineOf, lastLineOf, List.getLast?_append, List.getLast?_eq_some_getLast hts,
    Option.some_or]

theorem lastLineOf_append_cons (front : List (Lexeme α)) (t : Lexeme α) {ts : List (Lexeme α)}
    (hts : ts ≠ []) : lastLineOf (front ++ t :: ts) = lastLineOf ts := by
  rw [List.append_cons, lastLineOf_append _ hts]

end

/-! ## Sources -/

/-- What may stand between two scripts: a line break, or a comment up to one. -/
def IsJoint (joint : String) : Prop :=
  joint = "\n" ∨ ∃ comment, '\n' ∉ comment.toList ∧ joint = "#" ++ comment ++ "\n"

theorem IsJoint.lineEnd {joint : String} (h : IsJoint joint) (second : String) :
    LineEnd (joint ++ second).toList second.toList := by
  rcases h with rfl | ⟨comment, hcomment, rfl⟩
  · rw [String.toList_append]
    exact .bare _
  · simp only [String.toList_append, List.append_assoc]
    exact .comment hcomment _

/-- Below a script a source is read like on its own, on later lines. -/
theorem parse_below {first : String} {front : List (Lexeme α)} {last : Nat}
    {cs : List (Command α)} (hfront : ∀ t ∈ front, t.token ≠ .finish)
    (hfirst : parseLexemes (front ++ [⟨.finish, last⟩]) = .ok cs)
    (htail : ∀ {tail below}, LineEnd tail below → tokensFrom (α := α) 1 (first.toList ++ tail) =
      (tokensFrom (last + 1) below).map (front ++ ⟨.separator, last⟩ :: ·))
    (second : String) {joint : String} (hjoint : IsJoint joint) :
    parse (first ++ joint ++ second) =
      (renumberAnswer (· + last) (Command.renumber (· + last)) (parse second)).map (cs ++ ·) := by
  have htokens : tokenize (α := α) (first ++ joint ++ second) =
      (renumberAnswer (· + last) (Lexeme.renumber (· + last)) (tokenize second)).map
        (front ++ ⟨.separator, last⟩ :: ·) := by
    rw [tokenize, String.append_assoc, String.toList_append, htail (hjoint.lineEnd second),
      Nat.add_comm last 1, tokensFrom_add]
    rfl
  cases hsecond : tokenize (α := α) second with
  | error e => simp only [parse, htokens, hsecond]; rfl
  | ok lexemes =>
    obtain ⟨front', last', rfl, -⟩ := tokensFrom_append hsecond
    have hcommands : parseLexemes (front ++ ⟨.separator, last⟩ ::
        (front' ++ [(⟨.finish, last'⟩ : Lexeme α)]).map (Lexeme.renumber (· + last))) =
        (renumberAnswer (· + last) (Command.renumber (· + last))
          (parseLexemes (front' ++ [⟨.finish, last'⟩]))).map (cs ++ ·) := by
      rw [parseLexemes, commands_below hfront hfirst, lastLineOf_append_cons front _ (by simp),
        ← parseLexemes_renumber _ (by simp)]
      rfl
    simp only [parse, htokens, hsecond]
    exact hcommands

/-- **Scripts compose line by line.** Below a script that is read, any source adds its commands, or
has its error, with the line of the end of the script added to every line; this is so behind a line
break, and behind a comment with a line break. -/
theorem parse_append {first : String} {cs : List (Command α)} (h : parse first = .ok cs) :
    ∃ front last, tokenize (α := α) first = .ok (front ++ [⟨.finish, last⟩]) ∧
      ∀ second joint, IsJoint joint →
        (∀ ds, parse second = .ok ds →
          parse (first ++ joint ++ second) = .ok (cs ++ ds.map (Command.renumber (· + last)))) ∧
        ∀ e, parse (α := α) second = .error e →
          parse (α := α) (first ++ joint ++ second) = .error (e.renumber (· + last)) := by
  obtain ⟨lexemes, htokens, hcommands⟩ := bind_eq_ok_iff.1 h
  obtain ⟨front, last, rfl, hfront, htail⟩ := tokensFrom_append htokens
  refine ⟨front, last, htokens, fun second joint hjoint => ?_⟩
  have hbelow := parse_below hfront hcommands htail second hjoint
  constructor
  · intro ds hds
    rw [hbelow, hds]
    rfl
  · intro e he
    rw [hbelow, he]
    rfl

/-- Two calls with a comment behind the first one are on lines one and two. -/
theorem parse_append_of_two_calls :
    let source := "A()"
    parse (α := Float) source = .ok [⟨1, none, "A", [], []⟩] ∧
      parse (α := Float) (source ++ "#b\n" ++ source) =
        .ok [⟨1, none, "A", [], []⟩, ⟨2, none, "A", [], []⟩] := by
  intro source
  let call : List (Lexeme Float) := [wordAt "A" 1, mark .leftParen 1, mark .rightParen 1]
  have htokens : tokenize source = .ok (call ++ [⟨.finish, 1⟩]) := by
    have hword : piece (α := Float) 'A' ['(', ')'] = .ok (.token (.word "A"), ['(', ')']) := by rfl
    have hopening : piece (α := Float) '(' [')'] = .ok (.token (.symbol .leftParen), [')']) := by
      rfl
    have hclosing : piece (α := Float) ')' [] = .ok (.token (.symbol .rightParen), []) := by rfl
    rw [tokenize, show source.toList = ['A', '(', ')'] by decide, tokensFrom_cons_of_ok hword,
      tokensFrom_cons_of_ok hopening, tokensFrom_cons_of_ok hclosing, tokensFrom]
    rfl
  have hstatement : IsStatement ([] ++ call) ⟨1, none, "A", [], []⟩ :=
    .call .none (show Commas IsParameter [] (joined [] []) from .nil) rfl
  have hnone : Separators ([] : List (Lexeme Float)) := List.forall_mem_nil _
  have hparse : parse (α := Float) source = .ok [⟨1, none, "A", [], []⟩] := by
    rw [parse, htokens]
    exact commands_of_isProgram _ (.statements hnone (.one hstatement) hnone)
  obtain ⟨front, last, hfront, hbelow⟩ := parse_append hparse
  have hjoint : IsJoint "#b\n" := .inr ⟨"b", by decide, rfl⟩
  -- the script ends on line one
  obtain ⟨-, hlast⟩ := List.append_inj' (Except.ok.inj (htokens.symm.trans hfront)) rfl
  cases hlast
  exact ⟨hparse, (hbelow source _ hjoint).1 _ hparse⟩

end Straightedge.Script
