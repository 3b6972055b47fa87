import Mathlib.Data.List.TakeWhile
import Straightedge.Proofs.Script.Readers

/-! # What is read follows the grammar

The lexemes that a reader takes spell its value. For expressions this is an invariant of climbing:
what was read so far is a sum, a product or a factor, at least as tight as the next operator binds.

* **`Level`**: what operators of at least a precedence join.
* **`expressionsSpell`**: expressions.
* **`isValue_of_reads`**, **`isStatement_of_reads`**: values and statements.
* **`isProgram_of_commands`**: scripts. -/

namespace Straightedge.Script

variable {α β : Type}

/-! ## Items -/

/-- If the items that are read follow a rule, so do all items with the commas between them. -/
theorem ItemsRead.commas {close : Symbol} {item : List (Lexeme α) → β → List (Lexeme α) → Prop}
    {P : List (Lexeme α) → β → Prop} {ts rest : List (Lexeme α)} {xs : List β}
    (h : ItemsRead close item ts xs rest)
    (hitem : ∀ us x mid, us.length ≤ ts.length → item us x mid →
      ∃ used, us = used ++ mid ∧ P used x) :
    ∃ used n, ts = used ++ mark close n :: rest ∧ Commas P used xs := by
  induction h with
  | close n rest => exact ⟨[], n, rfl, .nil⟩
  | last n hts h =>
    obtain ⟨used, rfl, hP⟩ := hitem _ _ _ (Nat.le_refl _) h
    exact ⟨used, n, rfl, .last hP⟩
  | cons m hts h hs ih =>
    obtain ⟨used, rfl, hP⟩ := hitem _ _ _ (Nat.le_refl _) h
    obtain ⟨others, n, rfl, hothers⟩ := ih fun us x mid hle => hitem us x mid (by
      simp only [List.length_append, List.length_cons] at hle ⊢
      omega)
    exact ⟨used ++ mark .comma m :: others, n, by simp, .cons hP hothers⟩

/-! ## Expressions -/

/-- Before an operator there is a lexeme. -/
theorem exists_operator_of_nextPrecedence_pos {ts : List (Lexeme α)} (h : 0 < nextPrecedence ts) :
    ∃ t us o, ts = t :: us ∧ Operator.ofToken? t.token = some o ∧
      nextPrecedence ts = o.precedence := by
  cases ts with
  | nil => cases h
  | cons t us =>
    cases ho : Operator.ofToken? t.token with
    | none => simp [nextPrecedence, ho] at h
    | some o => exact ⟨t, us, o, rfl, ho, nextPrecedence_cons ho⟩

variable [Scalar α]

/-- What operators of at least the precedence `p` join: sums, products or factors. -/
def Level (p : Nat) (ts : List (Lexeme α)) (x : α) : Prop :=
  match p with
  | 0 => IsSum ts x
  | 1 => IsSum ts x
  | 2 => IsProduct ts x
  | _ => IsFactor ts x

/-- A factor is on every level. -/
theorem Level.of_isFactor {ts : List (Lexeme α)} {x : α} (h : IsFactor ts x) :
    ∀ p, Level p ts x
  | 0 => .product (.factor h)
  | 1 => .product (.factor h)
  | 2 => .factor h
  | _ + 3 => h

/-- A level contains the levels above it. -/
theorem Level.mono {p q : Nat} {ts : List (Lexeme α)} {x : α} (h : Level q ts x) (hpq : p ≤ q) :
    Level p ts x := by
  match q, h with
  | 0, h => obtain rfl := Nat.le_zero.1 hpq; exact h
  | 1, h => match p, hpq with
    | 0, _ => exact h
    | 1, _ => exact h
  | 2, h => match p, hpq with
    | 0, _ => exact .product h
    | 1, _ => exact .product h
    | 2, _ => exact h
  | q + 3, h => exact of_isFactor h p

/-- An operator joins what is on its own level with what is above it. -/
theorem Level.operator {o : Operator} {t : Lexeme α} (ho : Operator.ofToken? t.token = some o)
    {ts us : List (Lexeme α)} {x y : α} (h : Level o.precedence ts x)
    (h' : Level (o.precedence + 1) us y) : Level o.precedence (ts ++ t :: us) (o.apply x y) := by
  obtain ⟨token, n⟩ := t
  cases token with
  | symbol s =>
    cases s with
    | plus => cases ho; exact .add h h'
    | minus => cases ho; exact .sub h h'
    | star => cases ho; exact .mul h h'
    | slash => cases ho; exact .div h h'
    | _ => cases ho
  | _ => cases ho

variable [Numeral α]

/-- Expressions of less than `n` lexemes spell their values: on the level of their least precedence,
with all operators of that precedence. -/
def ExpressionsSpell (lastLine n : Nat) : Prop :=
  ∀ (ts rest : List (Lexeme α)) (least : Nat) (x : α), ts.length < n →
    Reads (expression lastLine least ts) x rest →
      ∃ used, ts = used ++ rest ∧ Level least used x ∧ nextPrecedence rest ≤ least - 1

/-- Climbing goes on from what was read to what its least precedence joins, if what was read is
tight enough for that and for the next operator. -/
theorem level_of_reads_climb {lastLine least n : Nat} (ih : ExpressionsSpell (α := α) lastLine n)
    {read ts rest : List (Lexeme α)} {left x : α} {q : Nat} (hts : ts.length ≤ n)
    (hread : Level q read left) (hleast : least ≤ q) (hnext : nextPrecedence ts ≤ q)
    (h : Reads (climb lastLine least left ts) x rest) :
    ∃ used, ts = used ++ rest ∧ Level least (read ++ used) x ∧
      nextPrecedence rest ≤ least - 1 := by
  induction hm : ts.length using Nat.strongRecOn generalizing ts q read left with
  | ind m ihm =>
  -- either no operator follows that binds tightly enough, or the next one is taken
  by_cases hstop : nextPrecedence ts ≤ least - 1
  · obtain ⟨rfl, rfl⟩ := (reads_climb_iff_of_stop hstop).1 h
    refine ⟨[], rfl, ?_, hstop⟩
    rw [List.append_nil]
    exact hread.mono hleast
  · have hpos : 0 < nextPrecedence ts := by omega
    obtain ⟨t, us, o, rfl, ho, hprecedence⟩ := exists_operator_of_nextPrecedence_pos hpos
    rw [hprecedence] at hstop hnext
    rw [List.length_cons] at hts hm
    obtain ⟨y, mid, hright, hclimb⟩ := (reads_climb_iff_of_operator ho (by omega)).1 h
    have hmid := hright.length_lt
    obtain ⟨right, rfl, hright, hnext'⟩ := ih us mid _ y (by omega) hright
    -- what is on the left is now as tight as this operator
    obtain ⟨used, rfl, hused, hrest⟩ := ihm mid.length (by omega) (by omega)
      (.operator ho (hread.mono hnext) hright) (by omega) hnext' hclimb rfl
    refine ⟨t :: right ++ used, by simp, ?_, hrest⟩
    rw [← List.append_assoc]
    exact hused

/-- An atom spells a factor. -/
theorem isFactor_of_reads_atom {lastLine : Nat} {ts rest : List (Lexeme α)} {x : α}
    (ih : ExpressionsSpell (α := α) lastLine ts.length) (h : Reads (atom lastLine ts) x rest) :
    ∃ used, ts = used ++ rest ∧ IsFactor used x := by
  cases reads_atom_iff.1 h with
  | number x n => exact ⟨[_], rfl, .number x n⟩
  | minus n h =>
    obtain ⟨used, rfl, hused, -⟩ := ih _ _ _ _ (Nat.lt_succ_self _) h
    exact ⟨_ :: used, rfl, .minus hused⟩
  | plus n h =>
    obtain ⟨used, rfl, hused, -⟩ := ih _ _ _ _ (Nat.lt_succ_self _) h
    exact ⟨_ :: used, rfl, .plus hused⟩
  | paren m n h =>
    obtain ⟨used, rfl, hused, -⟩ := ih _ _ _ _ (Nat.lt_succ_self _) h
    exact ⟨mark .leftParen m :: used ++ [mark .rightParen n], by simp, .paren hused⟩
  | call l m h hf =>
    rename_i f us xs _
    -- each argument is shorter than the call, so the hypothesis applies to it
    obtain ⟨used, n, rfl, hused⟩ := (reads_arguments_iff.1 h).commas (P := IsSum)
      fun vs y mid hle hy => by
        have hlt : vs.length < us.length + 2 := by omega
        obtain ⟨used, hvs, hused, -⟩ := ih _ _ _ _ hlt hy
        exact ⟨used, hvs, hused⟩
    exact ⟨wordAt f l :: mark .leftParen m :: used ++ [mark .rightParen n], by simp,
      .call hused hf⟩

/-- **Every expression spells its value**, by induction on the number of lexemes. -/
theorem expressionsSpell (lastLine n : Nat) : ExpressionsSpell (α := α) lastLine n := by
  induction n with
  | zero => exact fun ts rest least x hts _ => absurd hts (Nat.not_lt_zero _)
  | succ n ih =>
    intro ts rest least x hts h
    have hle : ts.length ≤ n := Nat.le_of_lt_succ hts
    obtain ⟨y, mid, hatom, hclimb⟩ := reads_expression_iff.1 h
    have hmid := hatom.length_lt
    obtain ⟨first, rfl, hfirst⟩ := isFactor_of_reads_atom
      (fun us rest least x hus => ih us rest least x (Nat.lt_of_lt_of_le hus hle)) hatom
    -- a factor is tight enough for every operator
    obtain ⟨used, rfl, hused, hrest⟩ := level_of_reads_climb ih (by omega)
      (.of_isFactor hfirst (least + 3)) (by omega)
      (Nat.le_trans (nextPrecedence_le _) (by omega)) hclimb
    exact ⟨first ++ used, (List.append_assoc _ _ _).symm, hused, hrest⟩

/-- What an expression is read from is a sum, if operators of all precedences are taken. -/
theorem isSum_of_reads {lastLine : Nat} {ts rest : List (Lexeme α)} {x : α}
    (h : Reads (expression lastLine 0 ts) x rest) : ∃ used, ts = used ++ rest ∧ IsSum used x := by
  obtain ⟨used, hts, hused, -⟩ :=
    expressionsSpell lastLine (ts.length + 1) ts rest 0 x (Nat.lt_succ_self _) h
  exact ⟨used, hts, hused⟩

/-! ## Values -/

omit [Numeral α] in
/-- A word that is a value is a truth value or a name. -/
theorem isValue_ofWord (text : String) (n : Nat) :
    IsValue (α := α) [wordAt text n] (Arg.ofWord text) := by
  unfold Arg.ofWord
  split
  · rename_i htrue
    rw [htrue]
    exact .true n
  · rename_i htrue
    split
    · rename_i hfalse
      rw [hfalse]
      exact .false n
    · rename_i hfalse
      exact .name htrue hfalse

omit [Scalar α] [Numeral α] in
/-- What is not two numbers makes a list. -/
theorem ofItems_eq_list {items : List (Arg α)} (h : ∀ x y, items ≠ [.number x, .number y]) :
    Arg.ofItems items = .list items := by
  unfold Arg.ofItems
  split
  · exact absurd rfl (h _ _)
  · rfl

omit [Numeral α] in
/-- Values in brackets are a position or a list. -/
theorem isValue_ofItems {ts : List (Lexeme α)} {items : List (Arg α)} (h : Commas IsValue ts items)
    (m n : Nat) :
    IsValue (mark .leftBracket m :: ts ++ [mark .rightBracket n]) (Arg.ofItems items) := by
  by_cases hitems : ∃ x y, items = [.number x, .number y]
  · obtain ⟨x, y, rfl⟩ := hitems
    exact .pair h
  · push Not at hitems
    rw [ofItems_eq_list hitems]
    exact .list h hitems

/-- **A value spells what is read from it.** -/
theorem isValue_of_reads {lastLine : Nat} {ts rest : List (Lexeme α)} {arg : Arg α}
    (h : Reads (value lastLine ts) arg rest) : ∃ used, ts = used ++ rest ∧ IsValue used arg := by
  induction hn : ts.length using Nat.strongRecOn generalizing ts rest arg with
  | ind n ih =>
  cases reads_value_iff.1 h with
  | quoted text n => exact ⟨[_], rfl, .quoted text n⟩
  | word text n hrest => exact ⟨[_], rfl, isValue_ofWord text n⟩
  | bracket l h =>
    rw [List.length_cons] at hn
    obtain ⟨used, m, rfl, hused⟩ := (reads_listItems_iff.1 h).commas (P := IsValue)
      fun vs arg mid hle harg => ih vs.length (by omega) harg rfl
    exact ⟨mark .leftBracket l :: used ++ [mark .rightBracket m], by simp,
      isValue_ofItems hused l m⟩
  | vector l m n hx hy =>
    obtain ⟨used, rfl, hused⟩ := isSum_of_reads hx
    obtain ⟨used', rfl, hused'⟩ := isSum_of_reads hy
    exact ⟨mark .leftAngle l :: used ++ mark .comma m :: used' ++ [mark .rightAngle n], by simp,
      .vector hused hused'⟩
  | number h =>
    obtain ⟨used, hts, hused⟩ := isSum_of_reads h
    exact ⟨used, hts, .number hused⟩

/-! ## Statements -/

/-- An argument spells what is read from it. -/
theorem ParameterReads.isParameter {lastLine : Nat} {keyworded : Bool} {ts rest : List (Lexeme α)}
    {item : Option String × Arg α} (h : ParameterReads lastLine keyworded ts item rest) :
    ∃ used, ts = used ++ rest ∧ IsParameter used item := by
  cases h with
  | keyword key m n h =>
    obtain ⟨used, rfl, hused⟩ := isValue_of_reads h
    exact ⟨wordAt key m :: mark .assign n :: used, rfl, .keyword hused⟩
  | positional _ _ h =>
    obtain ⟨used, rfl, hused⟩ := isValue_of_reads h
    exact ⟨used, rfl, .positional hused⟩

/-- **A statement spells the command that is read from it.** -/
theorem isStatement_of_reads {lastLine : Nat} {ts rest : List (Lexeme α)} {c : Command α}
    (h : Reads (statement lastLine ts) c rest) :
    ∃ used, ts = used ++ rest ∧ IsStatement used c := by
  obtain ⟨verb, l, m, us, ps, hverb, hps, rfl⟩ := reads_statement_iff.1 h
  obtain ⟨front, hts, hfront⟩ := isBinding_splitBinding ts
  obtain ⟨args, n, rfl, hargs⟩ :=
    (reads_parameters_iff.1 hps).commas fun _ _ _ _ hitem => hitem.isParameter
  rw [hverb] at hts
  refine ⟨front ++ wordAt verb l :: mark .leftParen m :: args ++ [mark .rightParen n], ?_,
    .call hfront hargs ?_⟩
  · rw [hts]
    simp
  · rw [hts]
    cases front <;> rfl

/-! ## Scripts -/

section

omit [Scalar α] [Numeral α]

theorem Token.isFinish_iff {token : Token α} : token.isFinish = true ↔ token = .finish := by
  cases token <;> simp [isFinish]

theorem Token.isSeparator_iff {token : Token α} :
    token.isSeparator = true ↔ token = .separator := by
  cases token <;> simp [isSeparator]

/-- Lexemes of which the last one, and no other, is the end of the script. -/
def EndsOnce (ts : List (Lexeme α)) : Prop :=
  ∃ front n, ts = front ++ [⟨.finish, n⟩] ∧ ∀ t ∈ front, t.token ≠ .finish

/-- What comes after another lexeme than the end ends once. -/
theorem EndsOnce.of_append {used rest : List (Lexeme α)} {t : Lexeme α}
    (h : EndsOnce (used ++ t :: rest)) (ht : t.token ≠ .finish) : EndsOnce rest := by
  obtain ⟨front, n, heq, hfront⟩ := h
  rcases List.eq_nil_or_concat rest with rfl | ⟨init, last, rfl⟩
  · obtain ⟨-, hlast⟩ := List.append_inj' heq rfl
    cases hlast
    exact absurd rfl ht
  · rw [List.concat_eq_append, ← List.cons_append, ← List.append_assoc] at heq
    obtain ⟨rfl, hlast⟩ := List.append_inj' heq rfl
    refine ⟨init, n, by rw [List.concat_eq_append, hlast], fun u hu => hfront u ?_⟩
    exact List.mem_append_right _ (List.mem_cons_of_mem _ hu)

/-- What comes after a first lexeme other than the end ends once. -/
theorem EndsOnce.of_append_cons {rest : List (Lexeme α)} {t : Lexeme α}
    (h : EndsOnce (t :: rest)) (ht : t.token ≠ .finish) : EndsOnce rest :=
  (show EndsOnce ([] ++ t :: rest) from h).of_append ht

/-- Where the end comes first, nothing comes after it. -/
theorem EndsOnce.eq_of_finish {ts : List (Lexeme α)} (h : EndsOnce ts)
    (hfinish : (current ts).isFinish = true) : ∃ n, ts = [⟨.finish, n⟩] := by
  obtain ⟨front, n, rfl, hfront⟩ := h
  cases front with
  | nil => exact ⟨n, rfl⟩
  | cons t front =>
    rw [List.cons_append, current_cons, Token.isFinish_iff] at hfinish
    exact absurd hfinish (hfront t List.mem_cons_self)

/-- The lexemes that are skipped are separators. -/
theorem exists_separators_append (ts : List (Lexeme α)) :
    ∃ seps, ts = seps ++ skipSeparators ts ∧ Separators seps := by
  refine ⟨ts.takeWhile (·.token.isSeparator), List.takeWhile_append_dropWhile.symm, ?_⟩
  intro t ht
  have hseparator := List.mem_takeWhile_imp ht
  exact Token.isSeparator_iff.1 hseparator

/-- Separators are not the end. -/
theorem EndsOnce.of_separators {seps ts : List (Lexeme α)} (hseps : Separators seps)
    (h : EndsOnce (seps ++ ts)) : EndsOnce ts := by
  induction seps with
  | nil => exact h
  | cons t seps ih =>
    have ht : t.token ≠ .finish := by
      rw [hseps t List.mem_cons_self]
      exact nofun
    exact ih (fun u hu => hseps u (List.mem_cons_of_mem t hu)) (h.of_append_cons ht)

omit [Scalar α] in
/-- A statement starts with a word and ends with a parenthesis. -/
theorem IsStatement.exists_ends [Scalar α] {ts : List (Lexeme α)} {c : Command α}
    (h : IsStatement ts c) :
    (∃ text n us, ts = wordAt text n :: us) ∧ ∃ us n, ts = us ++ [mark .rightParen n] := by
  cases h with
  | call hfront _ _ =>
    refine ⟨?_, _, _, rfl⟩
    cases hfront with
    | none => exact ⟨_, _, _, rfl⟩
    | bare _ _ _ => exact ⟨_, _, _, rfl⟩
    | introduced _ _ _ _ _ => exact ⟨_, _, _, rfl⟩

omit [Scalar α] in
/-- The end of the script is not in a statement. -/
theorem EndsOnce.of_isStatement [Scalar α] {ts rest : List (Lexeme α)} {c : Command α}
    (h : EndsOnce (ts ++ rest)) (hc : IsStatement ts c) : EndsOnce rest := by
  obtain ⟨us, n, rfl⟩ := hc.exists_ends.2
  rw [List.append_assoc] at h
  exact h.of_append nofun

end

omit [Numeral α] in
/-- A statement before a script, with a separator between them or nothing to read, is a script. -/
theorem IsProgram.cons {seps ts us : List (Lexeme α)} {c : Command α} {cs : List (Command α)}
    (hseps : Separators seps) (hc : IsStatement ts c) (h : IsProgram us cs)
    (hends : (current us).endsStatement = true) : IsProgram (seps ++ ts ++ us) (c :: cs) := by
  cases h with
  | empty hafter =>
    rw [← List.append_assoc]
    exact .statements hseps (.one hc) hafter
  | statements hbefore hs hafter =>
    rename_i before vs after n
    have hne : before ≠ [] := by
      rintro rfl
      -- otherwise the second statement would follow at once
      have hword : ∃ text n ws, vs = wordAt text n :: ws := by
        cases hs with
        | one h => exact h.exists_ends.1
        | more h _ _ _ =>
          obtain ⟨text, n, ws, rfl⟩ := h.exists_ends.1
          exact ⟨text, n, _, rfl⟩
      obtain ⟨text, n, ws, rfl⟩ := hword
      cases hends
    have hall := IsProgram.statements (n := n) hseps (.more hc hbefore hne hs) hafter
    simpa only [List.append_assoc] using hall

/-- **The commands of a script that is read are those that it spells.** -/
theorem isProgram_of_commands {lastLine : Nat} {ts : List (Lexeme α)} {cs : List (Command α)}
    (hts : EndsOnce ts) (h : commands lastLine ts = .ok cs) : IsProgram ts cs := by
  induction hn : ts.length using Nat.strongRecOn generalizing ts cs with
  | ind n ih =>
  -- separators are skipped; then the script ends or a statement follows
  obtain ⟨seps, hsplit, hseps⟩ := exists_separators_append ts
  have hlength := length_skipSeparators_le ts
  have hskip : EndsOnce (skipSeparators ts) := by
    rw [hsplit] at hts
    exact hts.of_separators hseps
  rw [hsplit]
  cases hfinish : (current (skipSeparators ts)).isFinish with
  | true =>
    rw [commands_of_finish hfinish] at h
    cases h
    obtain ⟨m, hm⟩ := hskip.eq_of_finish hfinish
    rw [hm]
    exact .empty hseps
  | false =>
    obtain ⟨c, mid, more, hc, hends, hmore, rfl⟩ := (commands_eq_ok_iff hfinish).1 h
    have hmid := hc.length_lt
    obtain ⟨used, hused, hstatement⟩ := isStatement_of_reads hc
    rw [hused] at hskip ⊢
    rw [← List.append_assoc]
    have hrest := hskip.of_isStatement hstatement
    exact .cons hseps hstatement (ih mid.length (by omega) hrest hmore rfl) hends

end Straightedge.Script
