import Straightedge.Proofs.Script.ItemReaders

/-! # What the readers read

For each reader, when it succeeds, with which value and with which lexemes left, in terms of the
readers it calls.

* **`reads_atom_iff`**, **`reads_expression_iff`**, **`reads_climb_iff_of_operator`**: expressions.
* **`reads_value_iff`**, **`reads_parameters_iff`**: arguments.
* **`reads_statement_iff`**, **`commands_eq_ok_iff`**: statements and scripts. -/

namespace Straightedge.Script

variable {α β : Type} {bound : Nat}

/-! ## Symbols -/

variable [Numeral α]

/-- A wanted symbol is read if it is the first lexeme. -/
theorem reads_expect_iff {lastLine : Nat} {s : Symbol} {ts rest : List (Lexeme α)} :
    Reads (expect lastLine s ts) () rest ↔ ∃ n, ts = mark s n :: rest := by
  unfold expect
  split
  · rename_i t n us
    split
    · rename_i hs
      subst hs
      rw [reads_ok_iff]
      constructor
      · rintro ⟨-, rfl⟩
        exact ⟨n, rfl⟩
      · rintro ⟨_, h⟩
        cases h
        exact ⟨rfl, rfl⟩
    · rename_i hs
      refine ⟨fun h => (not_reads_error h).elim, ?_⟩
      rintro ⟨_, h⟩
      cases h
      exact absurd rfl hs
  · rename_i hnone
    refine ⟨fun h => (not_reads_error h).elim, ?_⟩
    rintro ⟨n, rfl⟩
    exact absurd rfl (hnone s n rest)

/-- A step that reads a wanted symbol. -/
theorem reads_expect_bind_iff {lastLine : Nat} {s : Symbol} {ts : List (Lexeme α)}
    {next : Rest α Unit ts.length → Except ParseError (Rest α β bound)} {x : β}
    {rest : List (Lexeme α)} {P : List (Lexeme α) → Prop}
    (hnext : ∀ us h, Reads (next ⟨(), us, h⟩) x rest ↔ P us) :
    Reads (expect lastLine s ts >>= next) x rest ↔ ∃ n us, ts = mark s n :: us ∧ P us := by
  rw [reads_bind_iff_of (P := fun _ us => P us) fun _ us h => hnext us h]
  constructor
  · rintro ⟨_, us, hs, hP⟩
    obtain ⟨n, rfl⟩ := reads_expect_iff.1 hs
    exact ⟨n, us, rfl, hP⟩
  · rintro ⟨n, us, rfl, hP⟩
    exact ⟨(), us, reads_expect_iff.2 ⟨n, rfl⟩, hP⟩

/-! ## Operators -/

/-- The precedence of the operator that stands first, zero if none does. -/
def nextPrecedence (ts : List (Lexeme α)) : Nat :=
  ((Operator.ofToken? (current ts)).map Operator.precedence).getD 0

omit [Numeral α] in
theorem Operator.precedence_pos (o : Operator) : 0 < o.precedence := by cases o <;> decide

omit [Numeral α] in
theorem Operator.precedence_le (o : Operator) : o.precedence ≤ 2 := by cases o <;> decide

omit [Numeral α] in
theorem nextPrecedence_cons {t : Lexeme α} {ts : List (Lexeme α)} {o : Operator}
    (h : Operator.ofToken? t.token = some o) : nextPrecedence (t :: ts) = o.precedence := by
  simp only [nextPrecedence, current_cons, h, Option.map_some, Option.getD_some]

omit [Numeral α] in
theorem nextPrecedence_le (ts : List (Lexeme α)) : nextPrecedence ts ≤ 2 := by
  unfold nextPrecedence
  cases Operator.ofToken? (current ts) with
  | none => exact Nat.zero_le 2
  | some o => exact o.precedence_le

/-! ## Expressions -/

variable [Scalar α]

omit [Numeral α] in
/-- The functions are those of the grammar. -/
theorem callFunction_eq_ok_iff {f : String} {xs : List α} {x : α} :
    callFunction f xs = .ok x ↔ IsCall f xs x := by
  constructor
  · intro h
    unfold callFunction callUnary at h
    split at h
    -- `pi` takes no number
    case h_6 =>
      split at h
      · rename_i hempty
        cases h
        rw [List.isEmpty_iff.1 hempty]
        exact .pi
      · cases h
    -- no other function is known
    case h_7 => cases h
    -- the other five take one number
    all_goals
      split at h
      · cases h
        constructor
      · cases h
  · intro h
    cases h <;> rfl

/-- An expression is an atom and the operators after it. -/
theorem reads_expression_iff {lastLine least : Nat} {ts rest : List (Lexeme α)} {x : α} :
    Reads (expression lastLine least ts) x rest ↔
      ∃ y mid, Reads (atom lastLine ts) y mid ∧ Reads (climb lastLine least y mid) x rest := by
  rw [expression]
  exact reads_bind_iff_of fun y mid h => reads_keep_iff

/-- Climbing stops before a lexeme that is no operator or binds too loosely. -/
theorem reads_climb_iff_of_stop {lastLine least : Nat} {left x : α} {ts rest : List (Lexeme α)}
    (h : nextPrecedence ts ≤ least - 1) :
    Reads (climb lastLine least left ts) x rest ↔ left = x ∧ ts = rest := by
  cases ts with
  | nil =>
    rw [climb]
    exact reads_ok_iff
  | cons t ts =>
    rw [climb]
    cases ho : Operator.ofToken? t.token with
    | none => exact reads_ok_iff
    | some o =>
      rw [nextPrecedence_cons ho] at h
      have hpos := o.precedence_pos
      simp only
      rw [if_pos (by omega)]
      exact reads_ok_iff

/-- Climbing takes an operator that binds tightly enough, with its right operand. -/
theorem reads_climb_iff_of_operator {lastLine least : Nat} {left x : α} {t : Lexeme α}
    {ts rest : List (Lexeme α)} {o : Operator} (ho : Operator.ofToken? t.token = some o)
    (hle : least ≤ o.precedence) :
    Reads (climb lastLine least left (t :: ts)) x rest ↔
      ∃ y mid, Reads (expression lastLine (o.precedence + 1) ts) y mid ∧
        Reads (climb lastLine least (o.apply left y) mid) x rest := by
  rw [climb, ho]
  simp only
  rw [if_neg (Nat.not_lt.2 hle)]
  exact reads_bind_iff_of fun y mid h => reads_keep_iff

/-- What an atom is, by its first lexeme. -/
inductive AtomReads (lastLine : Nat) : List (Lexeme α) → α → List (Lexeme α) → Prop
  | number (x : α) (n : Nat) (rest : List (Lexeme α)) :
      AtomReads lastLine (⟨.number x, n⟩ :: rest) x rest
  | minus {ts rest : List (Lexeme α)} {x : α} (n : Nat)
      (h : Reads (expression lastLine signPrecedence ts) x rest) :
      AtomReads lastLine (mark .minus n :: ts) (-x) rest
  | plus {ts rest : List (Lexeme α)} {x : α} (n : Nat)
      (h : Reads (expression lastLine signPrecedence ts) x rest) :
      AtomReads lastLine (mark .plus n :: ts) x rest
  | paren {ts rest : List (Lexeme α)} {x : α} (m n : Nat)
      (h : Reads (expression lastLine 0 ts) x (mark .rightParen n :: rest)) :
      AtomReads lastLine (mark .leftParen m :: ts) x rest
  | call {f : String} {ts rest : List (Lexeme α)} {xs : List α} {x : α} (l m : Nat)
      (h : Reads (arguments lastLine ts) xs rest) (hf : IsCall f xs x) :
      AtomReads lastLine (wordAt f l :: mark .leftParen m :: ts) x rest

theorem reads_atom_paren_iff {lastLine m : Nat} {ts rest : List (Lexeme α)} {x : α} :
    Reads (atom lastLine (mark .leftParen m :: ts)) x rest ↔
      ∃ n, Reads (expression lastLine 0 ts) x (mark .rightParen n :: rest) := by
  rw [atom]
  refine (reads_bind_iff_of (P := fun y mid => ∃ n us, mid = mark .rightParen n :: us ∧ y = x ∧
    us = rest) fun y mid h => reads_expect_bind_iff fun us h' => reads_pure_iff).trans ?_
  constructor
  · rintro ⟨y, mid, h, n, us, rfl, rfl, rfl⟩
    exact ⟨n, h⟩
  · rintro ⟨n, h⟩
    exact ⟨x, _, h, n, rest, rfl, rfl, rfl⟩

theorem reads_atom_word_iff {lastLine l : Nat} {f : String} {ts rest : List (Lexeme α)} {x : α} :
    Reads (atom lastLine (wordAt f l :: ts)) x rest ↔
      ∃ m us xs, ts = mark .leftParen m :: us ∧ Reads (arguments lastLine us) xs rest ∧
        IsCall f xs x := by
  rw [atom]
  refine (reads_expect_bind_iff (P := fun us => ∃ xs mid, Reads (arguments lastLine us) xs mid ∧
    mid = rest ∧ IsCall f xs x) fun us h => reads_bind_iff_of fun xs mid h' => ?_).trans ?_
  · rw [← callFunction_eq_ok_iff]
    simp only
    cases hcall : callFunction f xs with
    | ok y =>
      rw [reads_pure_iff]
      constructor
      · rintro ⟨rfl, rfl⟩
        exact ⟨rfl, rfl⟩
      · rintro ⟨rfl, h⟩
        cases h
        exact ⟨rfl, rfl⟩
    | error cause =>
      refine ⟨fun h => (not_reads_throw h).elim, ?_⟩
      rintro ⟨-, h⟩
      cases h
  · constructor
    · rintro ⟨m, us, rfl, xs, mid, h, rfl, hf⟩
      exact ⟨m, us, xs, rfl, h, hf⟩
    · rintro ⟨m, us, xs, rfl, h, hf⟩
      exact ⟨m, us, rfl, xs, rest, h, rfl, hf⟩

/-- **An atom is what its first lexeme says.** -/
theorem reads_atom_iff {lastLine : Nat} {ts rest : List (Lexeme α)} {x : α} :
    Reads (atom lastLine ts) x rest ↔ AtomReads lastLine ts x rest := by
  constructor
  · intro h
    rcases ts with _ | ⟨⟨token, n⟩, ts⟩
    · rw [atom] at h
      exact (not_reads_error h).elim
    · cases token with
      | number y =>
        rw [atom] at h
        obtain ⟨rfl, rfl⟩ := reads_ok_iff.1 h
        exact .number _ _ _
      | word f =>
        obtain ⟨m, us, xs, rfl, hargs, hf⟩ := reads_atom_word_iff.1 h
        exact .call _ _ hargs hf
      | quoted _ => simp only [atom, not_reads_error] at h
      | separator => simp only [atom, not_reads_error] at h
      | finish => simp only [atom, not_reads_error] at h
      | symbol s =>
        cases s with
        | minus =>
          rw [atom, reads_map_iff] at h
          obtain ⟨y, h, rfl⟩ := h
          exact .minus _ h
        | plus =>
          rw [atom, reads_keep_iff] at h
          exact .plus _ h
        | leftParen =>
          obtain ⟨m, h⟩ := reads_atom_paren_iff.1 h
          exact .paren _ _ h
        | _ => simp only [atom, not_reads_error] at h
  · intro h
    cases h with
    | number n => rw [atom]; exact reads_ok_iff.2 ⟨rfl, rfl⟩
    | minus n h => rw [atom, reads_map_iff]; exact ⟨_, h, rfl⟩
    | plus n h => rw [atom, reads_keep_iff]; exact h
    | paren m n h => exact reads_atom_paren_iff.2 ⟨n, h⟩
    | call l m h hf => exact reads_atom_word_iff.2 ⟨m, _, _, rfl, h, hf⟩

theorem reads_arguments_step {lastLine : Nat} {ts rest : List (Lexeme α)} {xs : List α} :
    Reads (arguments lastLine ts) xs rest ↔
      ItemStep .rightParen (Reads (expression lastLine 0 ts))
        (fun y us => ∃ ys, Reads (arguments lastLine us) ys rest ∧ y :: ys = xs)
        (fun y => [y] = xs) ([] = xs) ts rest :=
  (readsItems_arguments lastLine).reads_iff ()

/-- The arguments of a function are expressions. -/
theorem reads_arguments_iff {lastLine : Nat} {ts rest : List (Lexeme α)} {xs : List α} :
    Reads (arguments lastLine ts) xs rest ↔
      ItemsRead .rightParen (fun ts => Reads (expression lastLine 0 ts)) ts xs rest := by
  rw [reads_arguments_step, itemsRead_iff]
  refine itemStep_congr fun y n us h => exists_congr fun ys => and_congr_left fun _ => ?_
  have hlt := h.length_lt
  exact reads_arguments_iff
termination_by ts.length
decreasing_by
  simp only [List.length_cons] at hlt
  omega

/-! ## Values -/

/-- Lexemes that a sum may start with. -/
inductive StartsSum : List (Lexeme α) → Prop
  | number (x : α) (n : Nat) (ts : List (Lexeme α)) : StartsSum (⟨.number x, n⟩ :: ts)
  | plus (n : Nat) (ts : List (Lexeme α)) : StartsSum (mark .plus n :: ts)
  | minus (n : Nat) (ts : List (Lexeme α)) : StartsSum (mark .minus n :: ts)
  | paren (n : Nat) (ts : List (Lexeme α)) : StartsSum (mark .leftParen n :: ts)
  | call (f : String) (m n : Nat) (ts : List (Lexeme α)) :
      StartsSum (wordAt f m :: mark .leftParen n :: ts)

/-- What an expression is read from starts like a sum. -/
theorem startsSum_of_reads {lastLine least : Nat} {ts rest : List (Lexeme α)} {x : α}
    (h : Reads (expression lastLine least ts) x rest) : StartsSum ts := by
  obtain ⟨y, mid, hatom, -⟩ := reads_expression_iff.1 h
  cases reads_atom_iff.1 hatom with
  | number _ _ _ => exact .number _ _ _
  | minus _ _ => exact .minus _ _
  | plus _ _ => exact .plus _ _
  | paren _ _ _ => exact .paren _ _
  | call _ _ _ _ => exact .call _ _ _ _

omit [Numeral α] [Scalar α] in
theorem isSymbol_current_iff {s : Symbol} {ts : List (Lexeme α)} :
    (current ts).isSymbol s = true ↔ ∃ n us, ts = mark s n :: us := by
  constructor
  · intro h
    rcases ts with _ | ⟨⟨token, n⟩, us⟩
    · cases h
    · cases token with
      | symbol t =>
        obtain rfl : s = t := by simpa [Token.isSymbol] using h
        exact ⟨n, us, rfl⟩
      | _ => cases h
  · rintro ⟨n, us, rfl⟩
    simp [Token.isSymbol]

/-- What a value is, by its first lexemes. -/
inductive ValueReads (lastLine : Nat) : List (Lexeme α) → Arg α → List (Lexeme α) → Prop
  | quoted (text : String) (n : Nat) (rest : List (Lexeme α)) :
      ValueReads lastLine (⟨.quoted text, n⟩ :: rest) (.quoted text) rest
  | word (text : String) (n : Nat) {rest : List (Lexeme α)}
      (hrest : ∀ m us, rest ≠ mark .leftParen m :: us) :
      ValueReads lastLine (wordAt text n :: rest) (Arg.ofWord text) rest
  | bracket {ts rest : List (Lexeme α)} {items : List (Arg α)} (n : Nat)
      (h : Reads (listItems lastLine ts) items rest) :
      ValueReads lastLine (mark .leftBracket n :: ts) (Arg.ofItems items) rest
  | vector {ts us rest : List (Lexeme α)} {x y : α} (l m n : Nat)
      (hx : Reads (expression lastLine 0 ts) x (mark .comma m :: us))
      (hy : Reads (expression lastLine 0 us) y (mark .rightAngle n :: rest)) :
      ValueReads lastLine (mark .leftAngle l :: ts) (.vector x y) rest
  | number {ts rest : List (Lexeme α)} {x : α} (h : Reads (expression lastLine 0 ts) x rest) :
      ValueReads lastLine ts (.number x) rest

theorem reads_value_angle_iff {lastLine l : Nat} {ts rest : List (Lexeme α)} {arg : Arg α} :
    Reads (value lastLine (mark .leftAngle l :: ts)) arg rest ↔
      ∃ x m us y n, Reads (expression lastLine 0 ts) x (mark .comma m :: us) ∧
        Reads (expression lastLine 0 us) y (mark .rightAngle n :: rest) ∧ .vector x y = arg := by
  rw [value]
  refine (reads_bind_iff_of (P := fun x mid => ∃ m us, mid = mark .comma m :: us ∧ ∃ y mid',
    Reads (expression lastLine 0 us) y mid' ∧ ∃ n vs, mid' = mark .rightAngle n :: vs ∧
      .vector x y = arg ∧ vs = rest) fun x mid _ => reads_expect_bind_iff fun us _ =>
        reads_bind_iff_of fun y mid' _ => reads_expect_bind_iff fun vs _ =>
          reads_pure_iff).trans ?_
  constructor
  · rintro ⟨x, _, hx, m, us, rfl, y, _, hy, n, vs, rfl, harg, rfl⟩
    exact ⟨x, m, us, y, n, hx, hy, harg⟩
  · rintro ⟨x, m, us, y, n, hx, hy, harg⟩
    exact ⟨x, _, hx, m, us, rfl, y, _, hy, n, rest, rfl, harg, rfl⟩

/-- **A value is what its first lexemes say.** -/
theorem reads_value_iff {lastLine : Nat} {ts rest : List (Lexeme α)} {arg : Arg α} :
    Reads (value lastLine ts) arg rest ↔ ValueReads lastLine ts arg rest := by
  constructor
  · intro h
    rw [value.eq_def] at h
    split at h
    · obtain ⟨rfl, rfl⟩ := reads_ok_iff.1 h
      exact .quoted _ _ _
    · obtain ⟨items, hitems, rfl⟩ := reads_map_iff.1 h
      exact .bracket _ hitems
    · rename_i l us
      have h' : Reads (value lastLine (mark .leftAngle l :: us)) arg rest := by
        rw [value]
        exact h
      obtain ⟨x, m, us, y, n, hx, hy, rfl⟩ := reads_value_angle_iff.1 h'
      exact .vector _ _ _ hx hy
    -- a word: with a parenthesis behind it a function, else a value of its own
    · split at h
      · obtain ⟨x, hx, rfl⟩ := reads_map_iff.1 h
        exact .number hx
      · rename_i hparen
        obtain ⟨rfl, rfl⟩ := reads_ok_iff.1 h
        refine .word _ _ fun m us hus => hparen ?_
        exact isSymbol_current_iff.2 ⟨m, us, hus⟩
    · obtain ⟨x, hx, rfl⟩ := reads_map_iff.1 h
      exact .number hx
  · intro h
    cases h with
    | quoted text n => rw [value]; exact reads_ok_iff.2 ⟨rfl, rfl⟩
    | word text n hrest =>
      rw [value, if_neg]
      · exact reads_ok_iff.2 ⟨rfl, rfl⟩
      · rw [isSymbol_current_iff]
        rintro ⟨m, us, hus⟩
        exact hrest m us hus
    | bracket n h => rw [value]; exact reads_map_iff.2 ⟨_, h, rfl⟩
    | vector l m n hx hy => exact reads_value_angle_iff.2 ⟨_, m, _, _, n, hx, hy, rfl⟩
    | number h =>
      -- how a sum starts tells that no other kind of value is tried
      cases startsSum_of_reads h with
      | number _ _ _ => simp only [value]; exact reads_map_iff.2 ⟨_, h, rfl⟩
      | plus _ _ => simp only [value]; exact reads_map_iff.2 ⟨_, h, rfl⟩
      | minus _ _ => simp only [value]; exact reads_map_iff.2 ⟨_, h, rfl⟩
      | paren _ _ => simp only [value]; exact reads_map_iff.2 ⟨_, h, rfl⟩
      | call f m n us =>
        rw [value, if_pos (isSymbol_current_iff.2 ⟨n, us, rfl⟩)]
        exact reads_map_iff.2 ⟨_, h, rfl⟩

theorem reads_listItems_step {lastLine : Nat} {ts rest : List (Lexeme α)} {items : List (Arg α)} :
    Reads (listItems lastLine ts) items rest ↔
      ItemStep .rightBracket (Reads (value lastLine ts))
        (fun y us => ∃ ys, Reads (listItems lastLine us) ys rest ∧ y :: ys = items)
        (fun y => [y] = items) ([] = items) ts rest :=
  (readsItems_listItems lastLine).reads_iff ()

/-- The items of a bracketed list are values. -/
theorem reads_listItems_iff {lastLine : Nat} {ts rest : List (Lexeme α)} {items : List (Arg α)} :
    Reads (listItems lastLine ts) items rest ↔
      ItemsRead .rightBracket (fun ts => Reads (value lastLine ts)) ts items rest := by
  rw [reads_listItems_step, itemsRead_iff]
  refine itemStep_congr fun y n us h => exists_congr fun ys => and_congr_left fun _ => ?_
  have hlt := h.length_lt
  exact reads_listItems_iff
termination_by ts.length
decreasing_by
  simp only [List.length_cons] at hlt
  omega

/-! ## Arguments of a statement -/

/-- What an argument is, by its first lexemes; `keyworded` tells that a keyword argument came before
it. -/
inductive ParameterReads (lastLine : Nat) (keyworded : Bool) :
    List (Lexeme α) → Option String × Arg α → List (Lexeme α) → Prop
  | keyword {ts rest : List (Lexeme α)} {arg : Arg α} (key : String) (m n : Nat)
      (h : Reads (value lastLine ts) arg rest) :
      ParameterReads lastLine keyworded (wordAt key m :: mark .assign n :: ts) (some key, arg) rest
  | positional {ts rest : List (Lexeme α)} {arg : Arg α} (hkeyworded : keyworded = false)
      (hts : ∀ key m n us, ts ≠ wordAt key m :: mark .assign n :: us)
      (h : Reads (value lastLine ts) arg rest) :
      ParameterReads lastLine keyworded ts (none, arg) rest

/-- **An argument is what its first lexemes say.** -/
theorem reads_parameter_iff {lastLine : Nat} {keyworded : Bool} {ts rest : List (Lexeme α)}
    {item : Option String × Arg α} :
    Reads (parameter lastLine keyworded ts) item rest ↔
      ParameterReads lastLine keyworded ts item rest := by
  constructor
  · intro h
    unfold parameter at h
    split at h
    · obtain ⟨arg, harg, rfl⟩ := reads_map_iff.1 h
      exact .keyword _ _ _ harg
    · rename_i hts
      split at h
      · exact (not_reads_error h).elim
      · rename_i hkeyworded
        obtain ⟨arg, harg, rfl⟩ := reads_map_iff.1 h
        exact .positional (eq_false_of_ne_true hkeyworded) hts harg
  · intro h
    unfold parameter
    cases h with
    | keyword key m n h => exact reads_map_iff.2 ⟨_, h, rfl⟩
    | positional hkeyworded hts h =>
      split
      · exact absurd rfl (hts _ _ _ _)
      · rw [if_neg (by rw [hkeyworded]; exact Bool.false_ne_true)]
        exact reads_map_iff.2 ⟨_, h, rfl⟩

/-- Behind a keyword argument there are only keyword arguments. -/
theorem ParameterReads.iff_keyworded {lastLine : Nat} {keyworded : Bool}
    {ts rest : List (Lexeme α)} {item : Option String × Arg α} :
    ParameterReads lastLine keyworded ts item rest ↔
      ParameterReads lastLine false ts item rest ∧ (keyworded = true → item.1.isSome = true) := by
  constructor
  · intro h
    cases h with
    | keyword key m n h => exact ⟨.keyword key m n h, fun _ => rfl⟩
    | positional hkeyworded hts h =>
      exact ⟨.positional rfl hts h, fun hk => absurd (hkeyworded.symm.trans hk) Bool.false_ne_true⟩
  · rintro ⟨h, hitem⟩
    cases h with
    | keyword key m n h => exact .keyword key m n h
    | positional _ hts h =>
      refine .positional ?_ hts h
      cases keyworded with
      | false => rfl
      | true => exact absurd (hitem rfl) Bool.false_ne_true

theorem reads_parameters_step {lastLine : Nat} {keyworded : Bool} {ts rest : List (Lexeme α)}
    {ps : Parameters α} :
    Reads (parameters lastLine keyworded ts) ps rest ↔
      ItemStep .rightParen (Reads (parameter lastLine keyworded ts))
        (fun item us => ∃ qs, Reads (parameters lastLine (keyworded || item.1.isSome) us) qs rest ∧
          Parameters.cons item qs = ps)
        (fun item => Parameters.cons item ⟨[], []⟩ = ps) (⟨[], []⟩ = ps) ts rest :=
  (readsItems_parameters lastLine).reads_iff keyworded

omit [Numeral α] [Scalar α] in
/-- An argument before others is the first of all, unless it is a keyword argument and one of the
others is positional. -/
theorem joined_cons {item : Option String × Arg α} {ps : Parameters α}
    (h : item.1.isSome = true → ps.args = []) :
    joined (Parameters.cons item ps).args (Parameters.cons item ps).kwargs =
      item :: joined ps.args ps.kwargs := by
  obtain ⟨key, arg⟩ := item
  cases key with
  | none => rfl
  | some key =>
    show joined ps.args ((key, arg) :: ps.kwargs) = _
    rw [h rfl]
    rfl

omit [Numeral α] [Scalar α] in
/-- The first argument may be taken off. -/
theorem exists_eq_cons_of_joined {item : Option String × Arg α}
    {items : List (Option String × Arg α)} {ps : Parameters α}
    (h : item :: items = joined ps.args ps.kwargs) :
    ∃ qs : Parameters α, ps = Parameters.cons item qs ∧ items = joined qs.args qs.kwargs ∧
      (item.1.isSome = true → qs.args = []) ∧ (ps.args = [] → item.1.isSome = true) := by
  obtain ⟨args, kwargs⟩ := ps
  cases args with
  | cons arg args =>
    cases h
    exact ⟨⟨args, kwargs⟩, rfl, rfl, fun h => absurd h Bool.false_ne_true, fun h => nomatch h⟩
  | nil =>
    cases kwargs with
    | nil => cases h
    | cons kwarg kwargs =>
      cases h
      exact ⟨⟨[], kwargs⟩, rfl, rfl, fun _ => rfl, fun _ => rfl⟩

omit [Numeral α] [Scalar α] in
/-- No arguments are none of either kind. -/
theorem eq_nil_of_joined {ps : Parameters α} (h : [] = joined ps.args ps.kwargs) :
    ⟨[], []⟩ = ps := by
  obtain ⟨args, kwargs⟩ := ps
  cases args with
  | cons arg args => cases h
  | nil =>
    cases kwargs with
    | nil => rfl
    | cons kwarg kwargs => cases h

/-- The arguments that are read are positional ones followed by keyword ones. -/
theorem itemsRead_of_reads_parameters {lastLine : Nat} {keyworded : Bool}
    {ts rest : List (Lexeme α)} {ps : Parameters α}
    (h : Reads (parameters lastLine keyworded ts) ps rest) :
    ItemsRead .rightParen (ParameterReads lastLine false) ts (joined ps.args ps.kwargs) rest ∧
      (keyworded = true → ps.args = []) := by
  -- by induction on the lexemes that are left; after a keyword argument `keyworded` stays true
  rcases reads_parameters_step.1 h with ⟨n, rfl, rfl⟩ | ⟨hts, item, mid, hitem, hnext⟩
  · exact ⟨.close n rest, fun _ => rfl⟩
  have hlt := hitem.length_lt
  rw [reads_parameter_iff, ParameterReads.iff_keyworded] at hitem
  obtain ⟨hitem, hkeyworded⟩ := hitem
  rcases hnext with ⟨n, rfl, rfl⟩ | ⟨n, us, rfl, qs, hqs, rfl⟩
  · rw [joined_cons fun _ => rfl]
    refine ⟨.last n hts hitem, fun hk => ?_⟩
    obtain ⟨_ | key, arg⟩ := item
    · exact absurd (hkeyworded hk) Bool.false_ne_true
    · rfl
  · have hus : us.length < ts.length := by
      rw [List.length_cons] at hlt
      omega
    obtain ⟨hitems, hargs⟩ := itemsRead_of_reads_parameters hqs
    have hsome : item.1.isSome = true → qs.args = [] := fun hsome => hargs (by simp [hsome])
    rw [joined_cons hsome]
    refine ⟨.cons n hts hitem hitems, fun hk => ?_⟩
    obtain ⟨_ | key, arg⟩ := item
    · exact absurd (hkeyworded hk) Bool.false_ne_true
    · exact hsome rfl
termination_by ts.length

/-- Positional arguments followed by keyword ones are read. -/
theorem reads_parameters_of_itemsRead {lastLine : Nat} {keyworded : Bool}
    {ts rest : List (Lexeme α)} {items : List (Option String × Arg α)} {ps : Parameters α}
    (h : ItemsRead .rightParen (ParameterReads lastLine false) ts items rest)
    (hitems : items = joined ps.args ps.kwargs) (hargs : keyworded = true → ps.args = []) :
    Reads (parameters lastLine keyworded ts) ps rest := by
  induction h generalizing keyworded ps with
  | close n rest => exact reads_parameters_step.2 (.inl ⟨n, rfl, eq_nil_of_joined hitems⟩)
  | last n hts h =>
    obtain ⟨qs, rfl, hqs, -, hsome⟩ := exists_eq_cons_of_joined hitems
    obtain rfl := eq_nil_of_joined hqs
    have hitem := ParameterReads.iff_keyworded.2 ⟨h, fun hk => hsome (hargs hk)⟩
    exact reads_parameters_step.2
      (.inr ⟨hts, _, _, reads_parameter_iff.2 hitem, .inl ⟨_, rfl, rfl⟩⟩)
  | cons n hts h hs ih =>
    obtain ⟨qs, rfl, hqs, hnil, hsome⟩ := exists_eq_cons_of_joined hitems
    have hitem := ParameterReads.iff_keyworded.2 ⟨h, fun hk => hsome (hargs hk)⟩
    -- behind this argument there may be positional ones only if it is positional itself
    have hrest := ih hqs fun hk => by
      rcases Bool.or_eq_true_iff.1 hk with hk | hk
      · exact hnil (hsome (hargs hk))
      · exact hnil hk
    exact reads_parameters_step.2
      (.inr ⟨hts, _, _, reads_parameter_iff.2 hitem, .inr ⟨_, _, rfl, qs, hrest, rfl⟩⟩)

/-- **The arguments of a statement are positional ones followed by keyword ones.** -/
theorem reads_parameters_iff {lastLine : Nat} {ts rest : List (Lexeme α)} {ps : Parameters α} :
    Reads (parameters lastLine false ts) ps rest ↔
      ItemsRead .rightParen (ParameterReads lastLine false) ts (joined ps.args ps.kwargs) rest :=
  ⟨fun h => (itemsRead_of_reads_parameters h).1,
    fun h => reads_parameters_of_itemsRead h rfl fun h => absurd h Bool.false_ne_true⟩

/-! ## Statements -/

omit [Numeral α] [Scalar α] in
/-- What stands before a call is a binding. -/
theorem isBinding_splitBinding (ts : List (Lexeme α)) :
    ∃ front, ts = front ++ (splitBinding ts).2 ∧ IsBinding front (splitBinding ts).1 := by
  unfold splitBinding
  -- a binding word, a name and an equals sign, or the last two, or neither
  split
  · split
    · rename_i keyword l bound m n rest hkeyword
      refine ⟨[wordAt keyword l, wordAt bound m, mark .assign n], rfl, .introduced bound l m n ?_⟩
      simpa [isBindingWord, or_assoc] using hkeyword
    · exact ⟨[], rfl, .none⟩
  · rename_i bound m n rest
    exact ⟨[wordAt bound m, mark .assign n], rfl, .bare bound m n⟩
  · exact ⟨[], rfl, .none⟩

omit [Numeral α] [Scalar α] in
/-- A binding before a call is split off. -/
theorem splitBinding_append {front : List (Lexeme α)} {binding : Option String}
    (h : IsBinding front binding) (verb : String) (l m : Nat) (ts : List (Lexeme α)) :
    splitBinding (front ++ wordAt verb l :: mark .leftParen m :: ts) =
      (binding, wordAt verb l :: mark .leftParen m :: ts) := by
  cases h with
  | none => rfl
  | bare bound m n => rfl
  | introduced bound l m n h =>
    rename_i keyword
    have hkeyword : isBindingWord keyword = true := by simpa [isBindingWord, or_assoc] using h
    simp only [List.cons_append, List.nil_append, splitBinding, hkeyword, if_true]

omit [Scalar α] in
/-- Any word may name an operation. -/
theorem reads_verbWord_iff {lastLine : Nat} {ts rest : List (Lexeme α)} {verb : String} :
    Reads (verbWord lastLine ts) verb rest ↔ ∃ l, ts = wordAt verb l :: rest := by
  unfold verbWord
  split
  · rw [reads_ok_iff]
    constructor
    · rintro ⟨rfl, rfl⟩
      exact ⟨_, rfl⟩
    · rintro ⟨_, h⟩
      cases h
      exact ⟨rfl, rfl⟩
  · rename_i hword
    refine ⟨fun h => (not_reads_error h).elim, ?_⟩
    rintro ⟨l, rfl⟩
    exact absurd rfl (hword _ _ _)

/-- **A statement is a binding, a word and arguments in parentheses.** -/
theorem reads_statement_iff {lastLine : Nat} {ts rest : List (Lexeme α)} {c : Command α} :
    Reads (statement lastLine ts) c rest ↔
      ∃ verb l m us ps, (splitBinding ts).2 = wordAt verb l :: mark .leftParen m :: us ∧
        Reads (parameters lastLine false us) ps rest ∧
        ⟨lineOf lastLine ts, (splitBinding ts).1, verb, ps.args, ps.kwargs⟩ = c := by
  unfold statement
  refine (reads_bind_iff_of (P := fun verb mid => ∃ m us, mid = mark .leftParen m :: us ∧
    ∃ ps mid', Reads (parameters lastLine false us) ps mid' ∧
      ⟨lineOf lastLine ts, (splitBinding ts).1, verb, ps.args, ps.kwargs⟩ = c ∧ mid' = rest)
    fun verb mid _ => reads_expect_bind_iff fun us _ => reads_bind_iff_of fun ps mid' _ =>
      reads_pure_iff).trans ?_
  simp only [reads_verbWord_iff]
  constructor
  · rintro ⟨verb, _, ⟨l, hverb⟩, m, us, rfl, ps, mid', hps, hc, rfl⟩
    exact ⟨verb, l, m, us, ps, hverb, hps, hc⟩
  · rintro ⟨verb, l, m, us, ps, hverb, hps, hc⟩
    exact ⟨verb, _, ⟨l, hverb⟩, m, us, rfl, ps, rest, hps, hc, rfl⟩

/-- A command is on the line of its first lexeme. -/
theorem line_of_reads_statement {lastLine : Nat} {ts rest : List (Lexeme α)} {c : Command α}
    (h : Reads (statement lastLine ts) c rest) : c.line = lineOf lastLine ts := by
  obtain ⟨_, _, _, _, _, -, -, rfl⟩ := reads_statement_iff.1 h
  rfl

/-! ## Scripts -/

/-- At the end of a script there are no more commands. -/
theorem commands_of_finish {lastLine : Nat} {ts : List (Lexeme α)}
    (h : (current (skipSeparators ts)).isFinish = true) : commands lastLine ts = .ok [] := by
  rw [commands, if_pos h]

/-- A statement that is not read is the end of the reading. -/
theorem commands_of_error {lastLine : Nat} {ts : List (Lexeme α)}
    (hfinish : (current (skipSeparators ts)).isFinish = false) {e : ParseError}
    (h : statement lastLine (skipSeparators ts) = .error e) : commands lastLine ts = .error e := by
  rw [commands, if_neg (by rw [hfinish]; exact Bool.false_ne_true), h]
  rfl

/-- A statement that is read stands before others, or before what is not the end of a statement. -/
theorem commands_of_reads {lastLine : Nat} {ts rest : List (Lexeme α)} {c : Command α}
    (hfinish : (current (skipSeparators ts)).isFinish = false)
    (h : Reads (statement lastLine (skipSeparators ts)) c rest) :
    commands lastLine ts =
      if (current rest).endsStatement then (commands lastLine rest).map (c :: ·)
      else .error (unexpected lastLine "end of statement" rest) := by
  obtain ⟨_, h⟩ := h
  rw [commands, if_neg (by rw [hfinish]; exact Bool.false_ne_true), h]
  show (if (current rest).endsStatement = true then _ else _) = _
  split
  · cases commands lastLine rest <;> rfl
  · rfl

/-- **Before the end of a script there is a statement, and after it a separator or the end.** -/
theorem commands_eq_ok_iff {lastLine : Nat} {ts : List (Lexeme α)}
    (h : (current (skipSeparators ts)).isFinish = false) {cs : List (Command α)} :
    commands lastLine ts = .ok cs ↔
      ∃ c mid more, Reads (statement lastLine (skipSeparators ts)) c mid ∧
        (current mid).endsStatement = true ∧ commands lastLine mid = .ok more ∧ cs = c :: more := by
  rw [commands, if_neg (by rw [h]; exact Bool.false_ne_true), bind_eq_ok_iff]
  constructor
  · rintro ⟨⟨c, mid, hmid⟩, hfirst, hnext⟩
    simp only at hnext
    split at hnext
    · rename_i hends
      obtain ⟨more, hmore, hcs⟩ := bind_eq_ok_iff.1 hnext
      exact ⟨c, mid, more, ⟨hmid, hfirst⟩, hends, hmore, pure_eq_ok_iff.1 hcs⟩
    · exact absurd hnext throw_ne_ok
  · rintro ⟨c, mid, more, ⟨hmid, hfirst⟩, hends, hmore, rfl⟩
    refine ⟨_, hfirst, ?_⟩
    simp only
    rw [if_pos hends]
    exact bind_eq_ok_iff.2 ⟨more, hmore, rfl⟩

end Straightedge.Script
