import Straightedge.Proofs.Script.WalkSteps

/-! # Each walk follows its reader

The walk over an expression, an argument, a statement or a script comes to the answer of the reader
of the same name, if the stack has two places for each token ahead and up to four more. An atom
needs one place; an expression, a value and a statement each need one more than what they call
first.

* **`Parameters.snoc`**: arguments in the order in which they are found.
* **`Walk.expressionsFollow`**, **`Walk.valuesFollow`**: expressions and values, by induction on the
  tokens ahead.
* **`Walk.follows_statement`**, **`Walk.follows_commands`**: statements and scripts. -/

namespace Straightedge.Script

/-! ## Arguments in a row -/

namespace Parameters

variable {α : Type}

/-- Arguments behind others. -/
def append (ps qs : Parameters α) : Parameters α := ⟨ps.args ++ qs.args, ps.kwargs ++ qs.kwargs⟩

/-- One more argument behind others. -/
def snoc (ps : Parameters α) (arg : Option String × Arg α) : Parameters α :=
  ps.append (.cons arg ⟨[], []⟩)

theorem append_nil (ps : Parameters α) : ps.append ⟨[], []⟩ = ps := by
  simp only [append, List.append_nil]

theorem snoc_positional (ps : Parameters α) (arg : Arg α) :
    ps.snoc (none, arg) = { ps with args := ps.args ++ [arg] } := by
  simp only [snoc, append, cons, List.append_nil]

theorem snoc_keyword (ps : Parameters α) (key : String) (arg : Arg α) :
    ps.snoc (some key, arg) = { ps with kwargs := ps.kwargs ++ [(key, arg)] } := by
  simp only [snoc, append, cons, List.append_nil]

theorem snoc_append (ps : Parameters α) (arg : Option String × Arg α) (qs : Parameters α) :
    (ps.snoc arg).append qs = ps.append (qs.cons arg) := by
  obtain ⟨_ | key, arg⟩ := arg <;> simp [snoc, append, cons]

/-- A keyword argument came before the next one if one came before, or if the last one is. -/
theorem keyworded_snoc (ps : Parameters α) (arg : Option String × Arg α) :
    (!(ps.snoc arg).kwargs.isEmpty) = (!ps.kwargs.isEmpty || arg.1.isSome) := by
  obtain ⟨_ | key, arg⟩ := arg <;> simp [snoc, append, cons]

end Parameters

namespace Walk

variable {α β γ : Type} [Scalar α] [Numeral α] {tokens ts : List (Lexeme α)}
  {most total limit stack n : Nat}

/-! ## Expressions -/

/-- Walks over expressions of less than `n` lexemes follow the reader, on a stack with two places
for each lexeme. -/
def ExpressionsFollow (tokens : List (Lexeme α)) (most limit n : Nat) : Prop :=
  ∀ (least stack total : Nat) (ts : List (Lexeme α)), ts.length < n → 2 * ts.length + 2 ≤ stack →
    total ≤ most → Follows tokens most total ts (expression tokens limit stack least)
      (Lands tokens (total - 1) id) (Script.expression (lastLineOf tokens) least ts)

omit [Numeral α] in
/-- The loop over operators, one round at a time. -/
theorem climb_succ (operand : Nat → Walk α) (least : Nat) (left : α) :
    climb tokens (limit + 1) operand least left = (do
      match Operator.ofToken? (← peekAt tokens 0) with
      | none => return left
      | some operator =>
        round
        if operator.precedence < least then return left
        else
          discard (advance tokens)
          let right ← operand (operator.precedence + 1)
          climb tokens limit operand least (operator.apply left right)) := by
  rw [climb, loop_succ, bind_assoc]
  congr 1
  funext token
  cases Operator.ofToken? token with
  | none => rfl
  | some operator =>
    simp only [ite_bind, bind_assoc, pure_bind, Sum.elim_inl, Sum.elim_inr, climb]

/-- Operators are taken one by one. The last round may end before an operator that binds too
loosely, and no token pays for it. -/
theorem follows_climb {stack : Nat} (ih : ExpressionsFollow tokens most limit n) (least : Nat) :
    ∀ (fuel total : Nat) (left : α) (ts : List (Lexeme α)), ts.length < fuel → ts.length ≤ n →
      2 * ts.length ≤ stack → total ≤ most →
      Follows tokens most total ts
        (climb tokens fuel (fun least => expression tokens limit stack least) least left)
        (Lands tokens (total + 1) id) (Script.climb (lastLineOf tokens) least left ts)
  | 0, _, _, _, hfuel, _, _, _ => absurd hfuel (Nat.not_lt_zero _)
  | fuel + 1, total, left, [], _, _, _, _ => by
    rw [climb_succ, Script.climb]
    exact .peek 0 (.lands rfl (Nat.le_succ _))
  | fuel + 1, total, left, t :: ts, hfuel, hts, hstack, hmost => by
    rw [List.length_cons] at hfuel hts hstack
    rw [climb_succ, Script.climb]
    refine .peek 0 ?_
    rw [List.drop_zero, current_cons]
    cases Operator.ofToken? t.token with
    | none => exact .lands rfl (Nat.le_succ _)
    | some o =>
      -- a round is begun before the precedence decides whether it takes the operator
      refine .round ?_
      simp only
      by_cases hleast : o.precedence < least
      · rw [if_pos hleast, if_pos hleast]
        exact .lands rfl (Nat.le_refl _)
      · rw [if_neg hleast, if_neg hleast]
        refine .take takes_discard fun htotal => ?_
        refine (ih _ stack (total + 1 - 2) ts (by omega) (by omega) (by omega)).bind
          fun y mid hmid => ?_
        exact (follows_climb ih least fuel (total + 1 - 2 - 1) (o.apply left y) mid (by omega)
          (by omega) (by omega) (by omega)).map (fun _ => rfl) (by omega)

theorem follows_arguments (hn : n ≤ limit) (ih : ExpressionsFollow tokens most limit n)
    (hts : ts.length < n) (hstack : 2 * ts.length + 2 ≤ stack) (hmost : total < most) :
    Follows tokens most total ts
      (enclosed tokens .rightParen "`,` or `)`"
        (fun args => return args ++ [← expression tokens limit stack 0])
        (discard (advance tokens)) limit [])
      (Lands tokens (total - 1) id) (Script.arguments (lastLineOf tokens) ts) :=
  follows_enclosed (n := ts.length + 1)
    ((readsItems_arguments (lastLineOf tokens)).comap (fun _ => ()) fun _ _ => rfl)
    (fun args => (List.append_nil args).symm) (fun args x => List.append_assoc args [x])
    (fun _ => takes_discard)
    (fun _ total vs hvs hmost =>
      (ih 0 stack total vs (by omega) (by omega) hmost).mapWalk (Nat.le_refl _))
    limit total [] ts (by omega) (by omega) hmost

/-- A walk over an atom needs one place less on the stack than one over an expression. -/
theorem follows_atom (hn : n ≤ limit) (ih : ExpressionsFollow tokens most limit n)
    (hts : ts.length ≤ n) (hstack : 2 * ts.length + 1 ≤ stack) (hmost : total ≤ most) :
    Follows tokens most total ts (atom tokens limit stack) (Lands tokens (total - 2) id)
      (Script.atom (lastLineOf tokens) ts) := by
  obtain ⟨stack, rfl⟩ : ∃ k, stack = k + 1 := ⟨stack - 1, by omega⟩
  rw [atom]
  rcases ts with _ | ⟨⟨token, l⟩, ts⟩
  · -- past the last token nothing is taken, and the missing number is an error
    rw [Script.atom]
    exact .advance_nil (.reject hmost)
  rw [List.length_cons] at hts hstack
  refine .take takes_advance fun htotal => ?_
  cases token with
  | number x =>
    rw [Script.atom]
    exact .lands rfl (by omega)
  | word f =>
    rw [Script.atom]
    refine (Follows.expect .leftParen (by omega)).bind fun _ us hus => ?_
    refine (follows_arguments hn ih (by omega) (by omega) (by omega)).bind fun xs rest hrest => ?_
    simp only [id_eq]
    cases callFunction f xs with
    | ok x => exact .lands rfl (by omega)
    | error cause => exact .reject (by omega)
  | symbol s =>
    have hoperand := fun least => ih least stack (total - 2) ts hts (by omega) (by omega)
    cases s with
    | minus =>
      rw [Script.atom]
      exact (hoperand signPrecedence).bind fun x rest h => .lands rfl (by omega)
    | plus =>
      rw [Script.atom]
      exact (hoperand signPrecedence).map (fun _ => rfl) (by omega)
    | leftParen =>
      rw [Script.atom]
      refine (hoperand 0).bind fun x mid h => ?_
      exact (Follows.expect .rightParen (by omega)).bind fun _ rest h => .lands rfl (by omega)
    | _ => simp only [Script.atom]; exact .reject (by omega)
  | _ => simp only [Script.atom]; exact .reject (by omega)

/-- **Walks over expressions follow the reader**, by induction on the number of lexemes. -/
theorem expressionsFollow (hn : n ≤ limit) : ExpressionsFollow tokens most limit n := by
  induction n with
  | zero => exact fun _ _ _ _ hts => absurd hts (Nat.not_lt_zero _)
  | succ n ih =>
    intro least stack total ts hts hstack hmost
    have hle : ts.length ≤ n := Nat.le_of_lt_succ hts
    have ih := ih (Nat.le_of_succ_le hn)
    obtain ⟨stack, rfl⟩ : ∃ k, stack = k + 1 := ⟨stack - 1, by omega⟩
    rw [expression, Script.expression]
    -- a token pays for two rounds: the atom's own token also pays for the round that only stops
    refine .of_length_le fun hlength => ?_
    refine (follows_atom (by omega) ih hle (by omega) hmost).bind fun x mid hmid => ?_
    exact (follows_climb ih least limit (total - 2) x mid (by omega) (by omega) (by omega)
      (by omega)).map (fun _ => rfl) (by omega)

theorem follows_expression (least : Nat) (hlimit : ts.length < limit)
    (hstack : 2 * ts.length + 2 ≤ stack) (hmost : total ≤ most) :
    Follows tokens most total ts (expression tokens limit stack least)
      (Lands tokens (total - 1) id) (Script.expression (lastLineOf tokens) least ts) :=
  expressionsFollow (Nat.le_refl limit) least stack total ts hlimit hstack hmost

/-! ## Values -/

/-- Walks over values of less than `n` lexemes follow the reader. -/
def ValuesFollow (tokens : List (Lexeme α)) (most limit n : Nat) : Prop :=
  ∀ (stack total : Nat) (ts : List (Lexeme α)), ts.length < n → 2 * ts.length + 3 ≤ stack →
    total ≤ most → Follows tokens most total ts (value tokens limit stack)
      (Lands tokens (total - 1) id) (Script.value (lastLineOf tokens) ts)

theorem follows_listItems (hn : n ≤ limit) (ih : ValuesFollow tokens most limit n)
    (hts : ts.length < n) (hstack : 2 * ts.length + 3 ≤ stack) (hmost : total < most) :
    Follows tokens most total ts
      (enclosed tokens .rightBracket "`,` or `]`"
        (fun args => return args ++ [← value tokens limit stack])
        (discard (advance tokens)) limit [])
      (Lands tokens (total - 1) id) (Script.listItems (lastLineOf tokens) ts) :=
  follows_enclosed (n := ts.length + 1)
    ((readsItems_listItems (lastLineOf tokens)).comap (fun _ => ()) fun _ _ => rfl)
    (fun args => (List.append_nil args).symm) (fun args x => List.append_assoc args [x])
    (fun _ => takes_discard)
    (fun _ total vs hvs hmost =>
      (ih stack total vs (by omega) (by omega) hmost).mapWalk (Nat.le_refl _))
    limit total [] ts (by omega) (by omega) hmost

/-- **Walks over values follow the reader**, by induction on the number of lexemes. -/
theorem valuesFollow (hn : n ≤ limit) : ValuesFollow tokens most limit n := by
  induction n with
  | zero => exact fun _ _ _ hts => absurd hts (Nat.not_lt_zero _)
  | succ n ih =>
    intro stack total ts hts hstack hmost
    have ih := ih (Nat.le_of_succ_le hn)
    obtain ⟨stack, rfl⟩ : ∃ k, stack = k + 1 := ⟨stack - 1, by omega⟩
    -- whatever starts no other kind of argument is read as a number
    have hnumber : Follows tokens most total ts
        (do return Arg.number (← expression tokens limit stack 0))
        (Lands tokens (total - 1) Arg.number) (Script.expression (lastLineOf tokens) 0 ts) :=
      (follows_expression 0 (Nat.lt_of_lt_of_le hts hn) (by omega) hmost).mapWalk (Nat.le_refl _)
    rw [value]
    refine .peek 0 ?_
    rcases ts with _ | ⟨⟨token, l⟩, ts⟩
    · rw [Script.value]
      · exact hnumber.map (fun _ => rfl) (Nat.le_refl _)
      all_goals intros; contradiction
    rw [List.length_cons] at hts hstack
    cases token with
    | quoted text =>
      rw [Script.value]
      exact .take takes_discard fun _ => .lands rfl (by omega)
    | word text =>
      rw [Script.value]
      refine .peek 1 ?_
      rw [List.drop_succ_cons, List.drop_zero]
      by_cases hparen : (current ts).isSymbol .leftParen = true
      · rw [if_pos hparen, if_pos hparen]
        exact hnumber.map (fun _ => rfl) (Nat.le_refl _)
      · rw [if_neg hparen, if_neg hparen]
        exact .take takes_discard fun _ => .lands rfl (by omega)
    | symbol s =>
      cases s with
      | leftBracket =>
        rw [Script.value]
        refine .take takes_discard fun htotal => ?_
        exact (follows_listItems (by omega) ih (by omega) (by omega) (by omega)).bind
          fun xs rest h => .lands rfl (by omega)
      | leftAngle =>
        rw [Script.value]
        refine .take takes_discard fun htotal => ?_
        refine (follows_expression 0 (by omega) (by omega) (by omega)).bind fun x mid₁ h₁ => ?_
        refine (Follows.expect .comma (by omega)).bind fun _ mid₂ h₂ => ?_
        refine (follows_expression 0 (by omega) (by omega) (by omega)).bind fun y mid₃ h₃ => ?_
        exact (Follows.expect .rightAngle (by omega)).bind fun _ rest h => .lands rfl (by omega)
      | _ => simp only [Script.value]; exact hnumber.map (fun _ => rfl) (Nat.le_refl _)
    | _ => simp only [Script.value]; exact hnumber.map (fun _ => rfl) (Nat.le_refl _)

theorem follows_value (hlimit : ts.length < limit) (hstack : 2 * ts.length + 3 ≤ stack)
    (hmost : total ≤ most) :
    Follows tokens most total ts (value tokens limit stack) (Lands tokens (total - 1) id)
      (Script.value (lastLineOf tokens) ts) :=
  valuesFollow (Nat.le_refl limit) stack total ts hlimit hstack hmost

/-! ## Statements -/

theorem follows_parameter (ps : Parameters α) (hlimit : ts.length < limit)
    (hstack : 2 * ts.length + 3 ≤ stack) (hmost : total ≤ most) :
    Follows tokens most total ts (parameter tokens limit stack ps)
      (Lands tokens (total - 1) ps.snoc)
      (Script.parameter (lastLineOf tokens) (!ps.kwargs.isEmpty) ts) := by
  refine .peek 0 (.peek 1 ?_)
  by_cases hkey : ∃ key m n vs, ts = wordAt key m :: mark .assign n :: vs
  · obtain ⟨key, m, n, vs, rfl⟩ := hkey
    rw [List.length_cons, List.length_cons] at hlimit hstack
    rw [Script.parameter]
    refine .take takes_discard fun _ => .take takes_discard fun htotal => ?_
    exact (follows_value (by omega) (by omega) (by omega)).bind fun x rest h =>
      .lands (ps.snoc_keyword key x).symm (by omega)
  -- without a keyword in front this is a positional argument
  push Not at hkey
  rw [Script.parameter]
  · split
    · rename_i key hfirst hsecond
      obtain ⟨m, us, rfl⟩ := exists_eq_cons_of_current hfirst nofun
      obtain ⟨n, vs, rfl⟩ := exists_eq_cons_of_current hsecond nofun
      exact absurd rfl (hkey key m n vs)
    · cases hempty : ps.kwargs.isEmpty with
      | true =>
        exact (follows_value hlimit hstack hmost).bind fun x rest h =>
          .lands (ps.snoc_positional x).symm (Nat.le_refl _)
      | false => exact .reject hmost
  · exact hkey

theorem follows_parameters (hlimit : ts.length < limit) (hstack : 2 * ts.length + 3 ≤ stack)
    (hmost : total < most) :
    Follows tokens most total ts
      (enclosed tokens .rightParen "`,` or `)`" (parameter tokens limit stack)
        (expect tokens .rightParen) limit ⟨[], []⟩)
      (Lands tokens (total - 1) id) (Script.parameters (lastLineOf tokens) false ts) :=
  follows_enclosed (n := ts.length + 1)
    ((readsItems_parameters (lastLineOf tokens)).comap (fun ps => !ps.kwargs.isEmpty)
      Parameters.keyworded_snoc)
    (fun ps => ps.append_nil.symm) Parameters.snoc_append (fun _ => takes_expect)
    (fun ps total vs hvs hmost => follows_parameter ps (by omega) (by omega) hmost)
    limit total ⟨[], []⟩ ts hlimit (Nat.lt_succ_self _) hmost

namespace Follows

variable {post : γ → β → Cursor → Prop} {answer : Except ParseError γ}

omit [Scalar α] [Numeral α]

/-- Where no binding with a word for bindings stands, none is seen. -/
theorem hasKeyword_false {next : Bool → Walk β}
    (hts : ∀ keyword bound k m n vs,
      ts = wordAt keyword k :: wordAt bound m :: mark .assign n :: vs →
        isBindingWord keyword = false)
    (h : Follows tokens most total ts (next false) post answer) :
    Follows tokens most total ts (hasKeyword tokens >>= next) post answer := by
  refine .assoc (.peek 0 (.assoc (.peek 1 (.assoc (.peek 2 ?_)))))
  split
  · rename_i keyword bound hfirst hsecond hthird
    obtain ⟨k, ts₁, rfl⟩ := exists_eq_cons_of_current hfirst nofun
    obtain ⟨m, ts₂, rfl⟩ := exists_eq_cons_of_current hsecond nofun
    obtain ⟨n, vs, rfl⟩ := exists_eq_cons_of_current hthird nofun
    rw [hts keyword bound k m n vs rfl, pure_bind]
    exact h
  · rw [pure_bind]
    exact h

/-- A word for bindings before a binding is seen. -/
theorem hasKeyword_true {keyword bound : String} {k m n : Nat} {next : Bool → Walk β}
    (hkeyword : isBindingWord keyword = true)
    (h : Follows tokens most total (wordAt keyword k :: wordAt bound m :: mark .assign n :: ts)
      (next true) post answer) :
    Follows tokens most total (wordAt keyword k :: wordAt bound m :: mark .assign n :: ts)
      (hasKeyword tokens >>= next) post answer := by
  refine .assoc (.peek 0 (.assoc (.peek 1 (.assoc (.peek 2 ?_)))))
  simp only [List.drop_zero, List.drop_succ_cons, current_cons, hkeyword, pure_bind]
  exact h

/-- A name before an equals sign is bound. -/
theorem binding_some {bound : String} {m n : Nat} {next : Option String → Walk β}
    [Numeral α] (h : Follows tokens most total ts (next (some bound)) post answer) :
    Follows tokens most total (wordAt bound m :: mark .assign n :: ts) (binding tokens >>= next)
      post answer := by
  refine .assoc (.peek 0 (.assoc (.peek 1 ?_)))
  simp only [List.drop_zero, List.drop_succ_cons, current_cons, bind_assoc, pure_bind]
  refine .take takes_ident fun _ => .take takes_discard fun _ => ?_
  exact h.anti (by omega)

/-- Elsewhere nothing is bound. -/
theorem binding_none {next : Option String → Walk β}
    [Numeral α] (hts : ∀ bound m n vs, ts ≠ wordAt bound m :: mark .assign n :: vs)
    (h : Follows tokens most total ts (next none) post answer) :
    Follows tokens most total ts (binding tokens >>= next) post answer := by
  refine .assoc (.peek 0 (.assoc (.peek 1 ?_)))
  split
  · rename_i bound hfirst hsecond
    obtain ⟨m, us, rfl⟩ := exists_eq_cons_of_current hfirst nofun
    obtain ⟨n, vs, rfl⟩ := exists_eq_cons_of_current hsecond nofun
    exact absurd rfl (hts bound m n vs)
  · rw [pure_bind]
    exact h

/-- The binding in front of a statement is the one that the reader splits off. -/
theorem splitBinding [Numeral α] {next : Option String → Walk β}
    (h : Follows tokens most total (splitBinding ts).2 (next (splitBinding ts).1) post answer) :
    Follows tokens most total ts (do
      if ← hasKeyword tokens then discard (advance tokens)
      let binding ← binding tokens
      next binding) post answer := by
  unfold Script.splitBinding at h
  split at h
  · rename_i keyword k bound m n vs
    by_cases hkeyword : isBindingWord keyword = true
    · rw [if_pos hkeyword] at h
      -- the word is stepped over, and then the name is bound like any other
      refine .hasKeyword_true hkeyword ?_
      simp only [if_true]
      exact .take takes_discard fun _ => .anti (.binding_some h) (Nat.sub_le total 2)
    · rw [if_neg hkeyword] at h
      refine .hasKeyword_false (fun _ _ _ _ _ _ heq => ?_) (.binding_none nofun h)
      cases heq
      exact Bool.eq_false_iff.2 hkeyword
  · exact .hasKeyword_false nofun (.binding_some h)
  · rename_i hkeyword hname
    exact .hasKeyword_false (fun _ _ _ _ _ _ heq => absurd heq (hkeyword _ _ _ _ _ _))
      (.binding_none hname h)

end Follows

/-- **Walks over statements follow the reader.** -/
theorem follows_statement (hlimit : ts.length < limit) (hstack : 2 * ts.length + 4 ≤ stack)
    (hmost : total ≤ most) :
    Follows tokens most total ts (statement tokens limit stack) (Lands tokens (total - 1) id)
      (Script.statement (lastLineOf tokens) ts) := by
  have hle := length_splitBinding_le ts
  obtain ⟨stack, rfl⟩ : ∃ k, stack = k + 1 := ⟨stack - 1, by omega⟩
  rw [statement, Script.statement]
  -- the tokens that are read before the loop pay for its first round
  refine .of_length_le fun hlength => .line (.splitBinding ?_)
  refine (Follows.ident hmost).bind fun verb mid₁ h₁ => ?_
  refine (Follows.expect .leftParen (by omega)).bind fun _ mid₂ h₂ => ?_
  exact (follows_parameters (by omega) (by omega) (by omega)).bind fun ps rest h =>
    .lands rfl (by omega)

/-! ## Scripts -/

omit [Scalar α] [Numeral α] in
theorem skipSeparators_succ :
    skipSeparators tokens (limit + 1) = (do
      if (← peekAt tokens 0).isSeparator then
        round
        discard (advance tokens)
        skipSeparators tokens limit
      else return ()) := by
  simp only [skipSeparators, loop_succ, bind_assoc, ite_bind, pure_bind, Sum.elim_inl, Sum.elim_inr]

theorem commands_succ {fuel : Nat} (out : List (Command α)) :
    commands tokens limit stack (fuel + 1) out = (do
      round
      skipSeparators tokens limit
      if (← peekAt tokens 0).isFinish then return out
      else
        let command ← statement tokens limit stack
        if (← peekAt tokens 0).endsStatement then
          commands tokens limit stack fuel (out ++ [command])
        else mismatch tokens "end of statement") := by
  simp only [commands, loop_succ, bind_assoc, ite_bind, pure_bind, Sum.elim_inl, Sum.elim_inr,
    mismatch_bind]

omit [Scalar α] [Numeral α] in
/-- Separators are gone past, each in a round that it pays for. -/
theorem Follows.skipSeparators {post : γ → β → Cursor → Prop} {answer : Except ParseError γ}
    {next : Unit → Walk β} (fuel : Nat) (ts : List (Lexeme α)) (hfuel : ts.length < fuel)
    (h : Follows tokens most total (Script.skipSeparators ts) (next ()) post answer) :
    Follows tokens most total ts (Walk.skipSeparators tokens fuel >>= next) post answer := by
  induction ts generalizing fuel with
  | nil =>
    obtain ⟨fuel, rfl⟩ : ∃ k, fuel = k + 1 := ⟨fuel - 1, by omega⟩
    rw [skipSeparators_succ]
    exact .assoc (.peek 0 h)
  | cons t ts ih =>
    obtain ⟨fuel, rfl⟩ : ∃ k, fuel = k + 1 := ⟨fuel - 1, by omega⟩
    rw [List.length_cons] at hfuel
    rw [skipSeparators_succ]
    refine .assoc (.peek 0 ?_)
    rw [List.drop_zero, current_cons]
    rw [Script.skipSeparators, List.dropWhile_cons] at h
    split
    · rename_i hseparator
      rw [if_pos hseparator] at h
      exact .assoc (.round (.assoc (.take takes_discard fun _ =>
        (ih fuel (by omega) h).anti (by omega))))
    · rename_i hseparator
      rw [if_neg hseparator] at h
      rw [pure_bind]
      exact h

/-- **Walks over statements up to the end of a script follow the reader**, by induction on the
rounds of the loop that are allowed. -/
theorem follows_commands :
    ∀ (fuel total : Nat) (out : List (Command α)) (ts : List (Lexeme α)), ts.length < fuel →
      ts.length < limit → 2 * ts.length + 4 ≤ stack → total < most →
      Follows tokens most total ts (commands tokens limit stack fuel out)
        (fun cs y c => y = out ++ cs ∧ c.position ≤ tokens.length ∧ c.rounds ≤ most)
        (Script.commands (lastLineOf tokens) ts)
  | 0, _, _, _, hfuel, _, _, _ => absurd hfuel (Nat.not_lt_zero _)
  | fuel + 1, total, out, ts, hfuel, hlimit, hstack, hmost => by
    have hle := length_skipSeparators_le ts
    rw [commands_succ, Script.commands]
    refine .round (.skipSeparators limit ts hlimit (.peek 0 ?_))
    rw [List.drop_zero]
    by_cases hfinish : (current (Script.skipSeparators ts)).isFinish = true
    · rw [if_pos hfinish, if_pos hfinish]
      refine .here fun c hc => ⟨(List.append_nil out).symm, hc.position_le, ?_⟩
      have hrounds := hc.rounds_add_le
      omega
    rw [if_neg hfinish, if_neg hfinish]
    refine (follows_statement (by omega) (by omega) hmost).bind fun command rest h => ?_
    refine .peek 0 ?_
    simp only [List.drop_zero]
    by_cases hends : (current rest).endsStatement = true
    · rw [if_pos hends, if_pos hends]
      -- the statement gives back what its round has cost
      refine (follows_commands fuel (total + 1 - 1) (out ++ [command]) rest (by omega) (by omega)
        (by omega) (by omega)).mapAnswer fun more y c hmore => ⟨?_, hmore.2⟩
      rw [hmore.1, List.append_assoc]
      rfl
    · rw [if_neg hends, if_neg hends]
      exact .mismatch (by omega)

end Walk

end Straightedge.Script
