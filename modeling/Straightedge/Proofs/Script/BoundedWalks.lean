import Straightedge.Binary64
import Straightedge.Proofs.Script.Relations
import Straightedge.Proofs.Script.WalkReaders

/-! # Parsing ends and does not run ahead

A parse is a walk over the tokens with a limit for calls within each other and a limit for the
rounds of each loop. Since it comes to the answer of a reader, which always ends, neither limit is
reached; its cursor tells besides where it can stand and how often it has gone round.

* **`Walk.Proceeds`**: what is true of one call from one cursor.
* **`Walk.endsStatement_of_reads_statement`**: what a statement does not take.
* **`Walk.calls_end_within_limits`**: the bounds for every call, and for the walk over a script. -/

namespace Straightedge.Script.Walk

variable {α β : Type} [Scalar α] [Numeral α] {tokens ts : List (Lexeme α)}
  {total total₁ limit : Nat}

/-! ## Calls of a parse -/

omit [Scalar α] [Numeral α] in
/-- **A call that ends and moves on.** It answers what the reader answers on the tokens ahead, so it
reaches neither limit; with a value it stands before the lexemes that the reader leaves, at least
one position on; it stays within the script; and it goes round loops at most twice for each token
ahead. -/
structure Proceeds (tokens : List (Lexeme α)) (c : Cursor) {bound : Nat} (w : Walk β)
    (answer : Except ParseError (Rest α β bound)) : Prop where
  value_eq : (exec w c).1 = (answer.map Rest.value).mapError .error
  drop_eq : ∀ r, answer = .ok r → tokens.drop (exec w c).2.position = r.lexemes
  forward : ∀ x, (exec w c).1 = .ok x → c.position < (exec w c).2.position
  position_le : (exec w c).2.position ≤ tokens.length
  rounds_le : (exec w c).2.rounds ≤ c.rounds + 2 * (tokens.length - c.position)

omit [Scalar α] [Numeral α] in
/-- The cursor before the tokens ahead. -/
theorem stands_drop {c : Cursor} (hc : c.position ≤ tokens.length) :
    Stands tokens (c.rounds + 2 * (tokens.length - c.position)) (tokens.drop c.position) c :=
  ⟨hc, rfl, Nat.le_of_eq (by rw [List.length_drop])⟩

omit [Scalar α] [Numeral α] in
/-- A walk that follows a reader of the tokens ahead proceeds. -/
theorem Follows.proceeds {c : Cursor} {w : Walk β}
    {answer : Except ParseError (Rest α β (tokens.drop c.position).length)}
    (hc : c.position ≤ tokens.length)
    (h : Follows tokens total total (tokens.drop c.position) w (Lands tokens total₁ id) answer)
    (htotal : total = c.rounds + 2 * (tokens.length - c.position)) (hle : total₁ ≤ total) :
    Proceeds tokens c w answer := by
  have hstands := htotal ▸ stands_drop hc
  have hahead := hstands.position_add
  have houtcome := h c hstands
  generalize hexec : exec w c = result at houtcome
  cases houtcome with
  | @ok r y c' hlands =>
    obtain ⟨rfl, hstands'⟩ := hlands
    have hrest := hstands'.position_add
    have hrounds := hstands'.rounds_add_le
    -- fewer lexemes are left than were ahead, so the cursor has moved on
    have hless := r.length_lt
    refine ⟨by rw [hexec]; rfl, ?_, ?_, ?_, ?_⟩ <;> rw [hexec]
    · intro r' hr'
      cases hr'
      exact hstands'.drop_eq
    · intro _ _
      show c.position < c'.position
      omega
    · exact hstands'.position_le
    · show c'.rounds ≤ c.rounds + 2 * (tokens.length - c.position)
      omega
  | error hposition hrounds =>
    refine ⟨by rw [hexec]; rfl, nofun, ?_, ?_, ?_⟩ <;> rw [hexec]
    · exact nofun
    · exact hposition
    · exact htotal ▸ hrounds

/-! ## The inside of a statement -/

omit [Scalar α] in
/-- What is behind tokens within a statement is read like itself. -/
theorem readAlike_suffix (start : List (Lexeme α)) (lastLine : Nat) :
    ReadAlike (fun ts us => us = ts ∧ ∃ used, start = used ++ ts ∧
      ∀ t ∈ used, t.token.endsStatement = false) (fun _ _ => True) lastLine lastLine where
  nil h := h.1
  cons := by
    rintro t ts us ⟨rfl, used, hstart, hused⟩
    refine ⟨t.line, ts, rfl, fun ht => ⟨rfl, used ++ [t], ?_, ?_⟩⟩
    · rw [hstart, List.append_assoc, List.singleton_append]
    · exact List.forall_mem_append.2 ⟨hused, List.forall_mem_singleton.2 ht⟩
  error _ _ := trivial
  noNumber _ := trivial

/-- **A statement takes no token that ends statements.** -/
theorem endsStatement_of_reads_statement {lastLine : Nat} {rest : List (Lexeme α)}
    {command : Command α} (h : Reads (Script.statement lastLine ts) command rest) :
    ∃ used, ts = used ++ rest ∧ ∀ t ∈ used, t.token.endsStatement = false := by
  obtain ⟨rest', hreads, rfl, hused⟩ :=
    (alike_statement (readAlike_suffix ts lastLine)
      ⟨rfl, [], rfl, List.forall_mem_nil _⟩).reads h
  exact hused

/-- The tokens that a call passes over are those that the reader takes. -/
theorem Proceeds.inside {c : Cursor} {w : Walk (Command α)} {lastLine : Nat}
    (h : Proceeds tokens c w (Script.statement lastLine (tokens.drop c.position)))
    {command : Command α} (hvalue : (exec w c).1 = .ok command) {i : Nat} (hi : i < tokens.length)
    (hfrom : c.position ≤ i) (hto : i < (exec w c).2.position) :
    tokens[i].token.endsStatement = false := by
  obtain ⟨r, hr⟩ : ∃ r, Script.statement lastLine (tokens.drop c.position) = .ok r := by
    have heq := h.value_eq
    rw [hvalue] at heq
    cases hstatement : Script.statement lastLine (tokens.drop c.position) with
    | ok r => exact ⟨r, rfl⟩
    | error e =>
      rw [hstatement] at heq
      cases heq
  obtain ⟨used, hused, hinside⟩ := endsStatement_of_reads_statement
    (hr ▸ reads_ok_iff.2 ⟨rfl, rfl⟩)
  -- as many tokens lie between the two positions as the reader has used
  have hlength : used.length = (exec w c).2.position - c.position := by
    have hle := h.position_le
    have hrest : r.lexemes.length = tokens.length - (exec w c).2.position := by
      rw [← h.drop_eq r hr, List.length_drop]
    have hahead : (tokens.drop c.position).length = tokens.length - c.position := List.length_drop
    have hlengths := congrArg List.length hused
    rw [List.length_append] at hlengths
    omega
  have hmem : tokens[i] ∈ used := by
    have hget : (tokens.drop c.position)[i - c.position]? = some tokens[i] := by
      rw [List.getElem?_drop, Nat.add_sub_cancel' hfrom, List.getElem?_eq_getElem hi]
    rw [hused, List.getElem?_append_left (by omega)] at hget
    exact List.mem_of_getElem? hget
  exact hinside _ hmem

/-! ## Whole scripts -/

/-- The calls that may stand within each other, each from the same cursor, on a stack with two
places for each token ahead and up to four more. -/
structure CallsProceed (tokens : List (Lexeme α)) (limit : Nat) (c : Cursor) : Prop where
  statement : ∀ stack, 2 * (tokens.length - c.position) + 4 ≤ stack →
    Proceeds tokens c (statement tokens limit stack)
      (Script.statement (lastLineOf tokens) (tokens.drop c.position))
  value : ∀ stack, 2 * (tokens.length - c.position) + 3 ≤ stack →
    Proceeds tokens c (value tokens limit stack)
      (Script.value (lastLineOf tokens) (tokens.drop c.position))
  expression : ∀ stack least, 2 * (tokens.length - c.position) + 2 ≤ stack →
    Proceeds tokens c (expression tokens limit stack least)
      (Script.expression (lastLineOf tokens) least (tokens.drop c.position))
  atom : ∀ stack, 2 * (tokens.length - c.position) + 1 ≤ stack →
    Proceeds tokens c (atom tokens limit stack)
      (Script.atom (lastLineOf tokens) (tokens.drop c.position))
  /-- A statement that is taken holds no token that ends statements. -/
  inside : ∀ stack command, 2 * (tokens.length - c.position) + 4 ≤ stack →
    (exec (Walk.statement tokens limit stack) c).1 = .ok command →
      ∀ (i : Nat) (hi : i < tokens.length), c.position ≤ i →
        i < (exec (Walk.statement tokens limit stack) c).2.position →
          tokens[i].token.endsStatement = false

theorem callsProceed {c : Cursor} (hlimit : tokens.length < limit)
    (hc : c.position ≤ tokens.length) : CallsProceed tokens limit c := by
  have hahead : (tokens.drop c.position).length = tokens.length - c.position := List.length_drop
  have hfits : (tokens.drop c.position).length < limit := by omega
  have hstatement : ∀ stack, 2 * (tokens.length - c.position) + 4 ≤ stack →
      Proceeds tokens c (statement tokens limit stack)
        (Script.statement (lastLineOf tokens) (tokens.drop c.position)) := fun stack hstack =>
    (follows_statement hfits (by omega) (Nat.le_refl _)).proceeds hc rfl (Nat.sub_le _ _)
  exact {
    statement := hstatement
    value := fun stack hstack =>
      (follows_value hfits (by omega) (Nat.le_refl _)).proceeds hc rfl (Nat.sub_le _ _)
    expression := fun stack least hstack =>
      (follows_expression least hfits (by omega) (Nat.le_refl _)).proceeds hc rfl (Nat.sub_le _ _)
    atom := fun stack hstack =>
      (follows_atom (Nat.le_refl limit) (expressionsFollow (Nat.le_refl limit))
        (Nat.le_of_lt hfits) (by omega) (Nat.le_refl _)).proceeds hc rfl (Nat.sub_le _ _)
    inside := fun stack command hstack hvalue i hi hfrom hto =>
      (hstatement stack hstack).inside hvalue hi hfrom hto }

/-- **Parsing ends and does not run ahead.** From every position of every list of tokens a call of
`statement`, `value`, `expression` or `atom` answers what its reader answers; with a value it has
moved on, no further than to the end of the tokens, and a statement has taken no token that ends
statements. The walk over a whole script, too, ends with the answer of `parseLexemes`. Calls stand
within each other at most four deeper than twice the number of tokens, and loops go round at most
once more than twice that number. -/
theorem calls_end_within_limits (tokens : List (Lexeme α)) {limit stack : Nat}
    (hlimit : tokens.length < limit) (hstack : 2 * tokens.length + 4 ≤ stack) :
    (∀ c : Cursor, c.position ≤ tokens.length → CallsProceed tokens limit c) ∧
      (exec (program tokens limit stack) ⟨0, 0⟩).1 = (parseLexemes tokens).mapError .error ∧
      (exec (program tokens limit stack) ⟨0, 0⟩).2.position ≤ tokens.length ∧
      (exec (program tokens limit stack) ⟨0, 0⟩).2.rounds ≤ 2 * tokens.length + 1 := by
  refine ⟨fun c hc => callsProceed hlimit hc, ?_⟩
  have hstart : Stands tokens (2 * tokens.length) tokens ⟨0, 0⟩ :=
    ⟨Nat.zero_le _, rfl, Nat.le_of_eq (Nat.zero_add _)⟩
  have houtcome := follows_commands limit (2 * tokens.length) [] tokens hlimit hlimit hstack
    (Nat.lt_succ_self _) ⟨0, 0⟩ hstart
  rw [program, parseLexemes]
  generalize exec (commands tokens limit stack limit []) ⟨0, 0⟩ = result at houtcome
  generalize Script.commands (lastLineOf tokens) tokens = answer at houtcome
  cases houtcome with
  | ok h =>
    obtain ⟨rfl, hposition, hrounds⟩ := h
    exact ⟨rfl, hposition, hrounds⟩
  | error hposition hrounds => exact ⟨rfl, hposition, hrounds⟩

/-- A call and a list within it that are never closed: a number is missing, and the walk ends. -/
theorem unclosed_list_ends :
    let tokens : List (Lexeme Float) := [wordAt "polygon" 1, mark .leftParen 1, mark .leftBracket 1]
    (tokens.length < 4 ∧ 2 * tokens.length + 4 ≤ 10) ∧
      exec (program tokens 4 10) ⟨0, 0⟩ =
        (.error (.error ⟨1, .unexpectedToken "a number" "end of input"⟩), ⟨3, 3⟩) ∧
      (∀ c : Cursor, c.position ≤ tokens.length → CallsProceed tokens 4 c) ∧
      (exec (program tokens 4 10) ⟨0, 0⟩).1 = (parseLexemes tokens).mapError .error ∧
      (exec (program tokens 4 10) ⟨0, 0⟩).2.position ≤ tokens.length ∧
      (exec (program tokens 4 10) ⟨0, 0⟩).2.rounds ≤ 2 * tokens.length + 1 :=
  ⟨by decide, by rfl, calls_end_within_limits _ (by decide) (by decide)⟩

end Straightedge.Script.Walk
