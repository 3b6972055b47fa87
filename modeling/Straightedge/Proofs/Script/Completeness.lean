import Straightedge.Binary64
import Straightedge.Proofs.Script.Soundness

/-! # What the grammar spells is read

The other direction: a reader takes the lexemes of a derivation and answers with its value. A sum
is read by climbing through it, operand by operand: reading its lexemes and whatever follows is the
same as climbing on from its value.

* **`IsSum.startsSum`**, **`IsValue.ne_close`**: how sums and values start.
* **`SumsRead`**, **`reads_of_isSum`**: expressions.
* **`reads_value_of_isValue`**, **`reads_statement_of_isStatement`**: values and statements.
* **`commands_of_isProgram`**, **`parseLexemes_eq_ok_iff`**: scripts. -/

namespace Straightedge.Script

variable {α β : Type}

/-! ## Items -/

/-- What may follow an item. -/
inductive EndsItem : List (Lexeme α) → Prop
  | comma (n : Nat) (ts : List (Lexeme α)) : EndsItem (mark .comma n :: ts)
  | paren (n : Nat) (ts : List (Lexeme α)) : EndsItem (mark .rightParen n :: ts)
  | bracket (n : Nat) (ts : List (Lexeme α)) : EndsItem (mark .rightBracket n :: ts)
  | angle (n : Nat) (ts : List (Lexeme α)) : EndsItem (mark .rightAngle n :: ts)

/-- No operator follows an item. -/
theorem EndsItem.nextPrecedence_eq {ts : List (Lexeme α)} (h : EndsItem ts) :
    nextPrecedence ts = 0 := by
  cases h <;> rfl

/-- No word that is a value stands before an opening parenthesis. -/
theorem EndsItem.ne_leftParen {ts : List (Lexeme α)} (h : EndsItem ts) (n : Nat)
    (us : List (Lexeme α)) : ts ≠ mark .leftParen n :: us := by
  rintro rfl
  cases h

/-- If every item of a rule is read, so are all items with the commas between them, up to a closing
symbol with which no item starts. -/
theorem ItemsRead.of_commas {close : Symbol}
    {item : List (Lexeme α) → β → List (Lexeme α) → Prop} {P : List (Lexeme α) → β → Prop}
    {ts rest : List (Lexeme α)} {xs : List β} {n : Nat} (h : Commas P ts xs)
    (hclose : EndsItem (mark close n :: rest))
    (hstart : ∀ us x, P us x → ∀ vs m ws, us ++ vs ≠ mark close m :: ws)
    (hitem : ∀ us x vs, us.length ≤ ts.length → P us x → EndsItem vs → item (us ++ vs) x vs) :
    ItemsRead close item (ts ++ mark close n :: rest) xs rest := by
  induction h with
  | nil => exact .close n rest
  | last h => exact .last n (hstart _ _ h _) (hitem _ _ _ (Nat.le_refl _) h hclose)
  | cons h hs ih =>
    rename_i m
    rw [List.append_assoc, List.cons_append]
    refine .cons m (hstart _ _ h _) (hitem _ _ _ ?_ h (.comma m _)) (ih ?_)
    · rw [List.length_append]
      exact Nat.le_add_right _ _
    · intro us x vs hle
      refine hitem us x vs (Nat.le_trans hle ?_)
      rw [List.length_append, List.length_cons]
      omega

/-! ## What sums and values start with -/

theorem StartsSum.append {ts : List (Lexeme α)} (h : StartsSum ts) (rest : List (Lexeme α)) :
    StartsSum (ts ++ rest) := by
  cases h with
  | number x n ts => exact .number x n _
  | plus n ts => exact .plus n _
  | minus n ts => exact .minus n _
  | paren n ts => exact .paren n _
  | call f m n ts => exact .call f m n _

/-- No sum starts with a closing parenthesis. -/
theorem StartsSum.ne_rightParen {ts : List (Lexeme α)} (h : StartsSum ts) (n : Nat)
    (us : List (Lexeme α)) : ts ≠ mark .rightParen n :: us := by
  rintro rfl
  cases h

variable [Scalar α]

theorem IsFactor.startsSum {ts : List (Lexeme α)} {x : α} (h : IsFactor ts x) : StartsSum ts := by
  cases h with
  | number x n => exact .number x n []
  | plus h => exact .plus _ _
  | minus h => exact .minus _ _
  | paren h => exact .paren _ _
  | call h hf => exact .call _ _ _ _

theorem IsProduct.startsSum {ts : List (Lexeme α)} {x : α} (h : IsProduct ts x) :
    StartsSum ts := by
  induction hn : ts.length using Nat.strongRecOn generalizing ts x with
  | ind n ih =>
  cases h with
  | factor h => exact h.startsSum
  | mul h h' => exact (ih _ (by rw [← hn]; simp) h rfl).append _
  | div h h' => exact (ih _ (by rw [← hn]; simp) h rfl).append _

theorem IsSum.startsSum {ts : List (Lexeme α)} {x : α} (h : IsSum ts x) : StartsSum ts := by
  induction hn : ts.length using Nat.strongRecOn generalizing ts x with
  | ind n ih =>
  cases h with
  | product h => exact h.startsSum
  | add h h' => exact (ih _ (by rw [← hn]; simp) h rfl).append _
  | sub h h' => exact (ih _ (by rw [← hn]; simp) h rfl).append _

/-! ## Expressions -/

variable [Numeral α]

/-- Sums of less than `n` lexemes are climbed through: with whatever follows, they are read as
climbing goes on from their values. -/
def SumsRead (lastLine n : Nat) : Prop :=
  ∀ (ts rest out : List (Lexeme α)) (x z : α) (least : Nat), ts.length < n → IsSum ts x →
    least ≤ 1 → nextPrecedence rest ≤ 1 → Reads (climb lastLine least x rest) z out →
      Reads (expression lastLine least (ts ++ rest)) z out

/-- A sum is read if no operator follows it. -/
theorem SumsRead.reads {lastLine n : Nat} (h : SumsRead (α := α) lastLine n)
    {ts rest : List (Lexeme α)} {x : α} (hts : ts.length < n) (hsum : IsSum ts x)
    (hrest : nextPrecedence rest = 0) : Reads (expression lastLine 0 (ts ++ rest)) x rest := by
  refine h ts rest rest x x 0 hts hsum (Nat.zero_le 1) (by omega) ?_
  exact (reads_climb_iff_of_stop (by omega)).2 ⟨rfl, rfl⟩

/-- An atom is an expression if only operators follow it that bind too loosely. -/
theorem reads_expression_of_atom {lastLine least : Nat} {ts rest : List (Lexeme α)} {x : α}
    (h : Reads (atom lastLine ts) x rest) (hrest : nextPrecedence rest ≤ least - 1) :
    Reads (expression lastLine least ts) x rest :=
  reads_expression_iff.2 ⟨x, rest, h, (reads_climb_iff_of_stop hrest).2 ⟨rfl, rfl⟩⟩

/-- A factor is read, whatever follows it. -/
theorem reads_atom_of_isFactor {lastLine n : Nat} (ih : SumsRead (α := α) lastLine n)
    {ts : List (Lexeme α)} {x : α} (hts : ts.length ≤ n) (h : IsFactor ts x)
    (rest : List (Lexeme α)) : Reads (atom lastLine (ts ++ rest)) x rest := by
  induction hm : ts.length using Nat.strongRecOn generalizing ts x with
  | ind m ihm =>
  rw [reads_atom_iff]
  cases h with
  | number x n => exact .number x n rest
  | plus h =>
    rw [List.length_cons] at hm hts
    have hatom := ihm _ (by omega) (by omega) h rfl
    exact .plus _ (reads_expression_of_atom hatom (nextPrecedence_le rest))
  | minus h =>
    rw [List.length_cons] at hm hts
    have hatom := ihm _ (by omega) (by omega) h rfl
    exact .minus _ (reads_expression_of_atom hatom (nextPrecedence_le rest))
  | paren h =>
    rename_i us k l
    simp only [List.length_append, List.length_cons] at hts
    rw [List.cons_append, List.cons_append, List.append_assoc]
    exact .paren k l (ih.reads (by omega) h rfl)
  | call h hf =>
    rename_i f us xs j k l
    simp only [List.length_append, List.length_cons] at hts
    rw [List.cons_append, List.cons_append, List.cons_append, List.cons_append, List.append_assoc]
    refine .call j k (reads_arguments_iff.2 (.of_commas h (.paren l rest) ?_ ?_)) hf
    · intro vs y hsum ws m ws'
      exact (hsum.startsSum.append ws).ne_rightParen m ws'
    · intro vs y ws hle hsum hends
      exact ih.reads (by omega) hsum hends.nextPrecedence_eq

/-- A product is climbed through, whatever follows it. -/
theorem reads_of_isProduct {lastLine least n : Nat} (ih : SumsRead (α := α) lastLine n)
    {ts rest out : List (Lexeme α)} {x z : α} (hts : ts.length ≤ n) (h : IsProduct ts x)
    (hleast : least ≤ 2) (hclimb : Reads (climb lastLine least x rest) z out) :
    Reads (expression lastLine least (ts ++ rest)) z out := by
  induction hm : ts.length using Nat.strongRecOn generalizing ts rest x with
  | ind m ihm =>
  -- operators of this precedence take one factor to their right
  have hright : ∀ {us : List (Lexeme α)} {y : α}, us.length ≤ n → IsFactor us y →
      Reads (expression lastLine 3 (us ++ rest)) y rest := by
    intro us y hus hfactor
    have hatom := reads_atom_of_isFactor ih hus hfactor rest
    exact reads_expression_of_atom hatom (nextPrecedence_le rest)
  cases h with
  | factor h =>
    have hatom := reads_atom_of_isFactor ih hts h rest
    exact reads_expression_iff.2 ⟨x, rest, hatom, hclimb⟩
  | mul h h' =>
    simp only [List.length_append, List.length_cons] at hm hts
    rw [List.append_assoc]
    refine ihm _ (by omega) (by omega) h ?_ rfl
    exact (reads_climb_iff_of_operator (o := .mul) rfl hleast).2
      ⟨_, rest, hright (by omega) h', hclimb⟩
  | div h h' =>
    simp only [List.length_append, List.length_cons] at hm hts
    rw [List.append_assoc]
    refine ihm _ (by omega) (by omega) h ?_ rfl
    exact (reads_climb_iff_of_operator (o := .div) rfl hleast).2
      ⟨_, rest, hright (by omega) h', hclimb⟩

/-- **Every sum is climbed through**, by induction on the number of lexemes. -/
theorem sumsRead (lastLine n : Nat) : SumsRead (α := α) lastLine n := by
  induction n with
  | zero => exact fun ts rest out x z least hts => absurd hts (Nat.not_lt_zero _)
  | succ n ih =>
    intro ts rest out x z least hts hsum hleast hrest hclimb
    have hle : ts.length ≤ n := Nat.le_of_lt_succ hts
    -- operators of this precedence take one product to their right
    have hright : ∀ {us : List (Lexeme α)} {y : α}, us.length ≤ n → IsProduct us y →
        Reads (expression lastLine 2 (us ++ rest)) y rest := by
      intro us y hus hproduct
      refine reads_of_isProduct ih hus hproduct (Nat.le_refl 2) ?_
      exact (reads_climb_iff_of_stop hrest).2 ⟨rfl, rfl⟩
    cases hsum with
    | product h => exact reads_of_isProduct ih hle h (by omega) hclimb
    | add h h' =>
      simp only [List.length_append, List.length_cons] at hle
      rw [List.append_assoc]
      refine ih _ _ out _ z least (by omega) h hleast (Nat.le_refl 1) ?_
      exact (reads_climb_iff_of_operator (o := .add) rfl hleast).2
        ⟨_, rest, hright (by omega) h', hclimb⟩
    | sub h h' =>
      simp only [List.length_append, List.length_cons] at hle
      rw [List.append_assoc]
      refine ih _ _ out _ z least (by omega) h hleast (Nat.le_refl 1) ?_
      exact (reads_climb_iff_of_operator (o := .sub) rfl hleast).2
        ⟨_, rest, hright (by omega) h', hclimb⟩

/-- **A sum is read with its value**, if no operator follows it. -/
theorem reads_of_isSum (lastLine : Nat) {ts : List (Lexeme α)} {x : α} (h : IsSum ts x)
    (rest : List (Lexeme α)) (hrest : nextPrecedence rest = 0) :
    Reads (expression lastLine 0 (ts ++ rest)) x rest :=
  (sumsRead lastLine (ts.length + 1)).reads (Nat.lt_succ_self _) h hrest

/-! ## Values -/

omit [Numeral α] in
/-- No value starts with a closing symbol. -/
theorem IsValue.ne_close {ts : List (Lexeme α)} {arg : Arg α} (h : IsValue ts arg) {close : Symbol}
    (hclose : close = .rightParen ∨ close = .rightBracket) (rest : List (Lexeme α)) (n : Nat)
    (us : List (Lexeme α)) : ts ++ rest ≠ mark close n :: us := by
  intro heq
  cases h with
  | quoted text n => cases heq
  | true n => cases heq
  | false n => cases heq
  | name htrue hfalse => cases heq
  | pair h => cases heq; rcases hclose with h | h <;> cases h
  | list h hitems => cases heq; rcases hclose with h | h <;> cases h
  | vector h h' => cases heq; rcases hclose with h | h <;> cases h
  | number h =>
    have hstart := h.startsSum.append rest
    rw [heq] at hstart
    rcases hclose with rfl | rfl <;> cases hstart

/-- **A value is read**, if something follows it that may. -/
theorem reads_value_of_isValue (lastLine : Nat) {ts rest : List (Lexeme α)} {arg : Arg α}
    (h : IsValue ts arg) (hrest : EndsItem rest) :
    Reads (value lastLine (ts ++ rest)) arg rest := by
  induction hn : ts.length using Nat.strongRecOn generalizing ts rest arg with
  | ind n ih =>
  -- pairs and lists are read alike and told apart by their items
  have hbracket : ∀ {us : List (Lexeme α)} {items : List (Arg α)} {k l : Nat},
      ts = mark .leftBracket k :: us ++ [mark .rightBracket l] → Commas IsValue us items →
        Reads (value lastLine (ts ++ rest)) (Arg.ofItems items) rest := by
    rintro us items k l rfl hitems
    simp only [List.length_append, List.length_cons] at hn
    rw [List.cons_append, List.cons_append, List.append_assoc, reads_value_iff]
    refine .bracket k (reads_listItems_iff.2 (.of_commas hitems (.bracket l rest) ?_ ?_))
    · intro vs arg hvalue
      exact hvalue.ne_close (.inr rfl)
    · intro vs arg ws hle hvalue hends
      exact ih vs.length (by omega) hvalue hends rfl
  cases h with
  | quoted text n => exact reads_value_iff.2 (.quoted text n rest)
  | true n => exact reads_value_iff.2 (.word "true" n hrest.ne_leftParen)
  | false n => exact reads_value_iff.2 (.word "false" n hrest.ne_leftParen)
  | name htrue hfalse =>
    rename_i text n
    have hword : Arg.ofWord text = .word (α := α) text := by
      simp only [Arg.ofWord, if_neg htrue, if_neg hfalse]
    rw [← hword]
    exact reads_value_iff.2 (.word text n hrest.ne_leftParen)
  | pair h => exact hbracket rfl h
  | list h hitems =>
    have hvalue := hbracket rfl h
    rwa [ofItems_eq_list hitems] at hvalue
  | vector h h' =>
    rename_i us vs x y k l m
    rw [reads_value_iff]
    have hx := reads_of_isSum lastLine h (mark .comma l :: (vs ++ mark .rightAngle m :: rest)) rfl
    have hy := reads_of_isSum lastLine h' (mark .rightAngle m :: rest) rfl
    simpa using ValueReads.vector k l m hx hy
  | number h =>
    exact reads_value_iff.2 (.number (reads_of_isSum lastLine h rest hrest.nextPrecedence_eq))

/-! ## Statements -/

omit [Numeral α] in
/-- No positional argument looks like a keyword argument. -/
theorem IsValue.ne_keyword {ts : List (Lexeme α)} {arg : Arg α} (h : IsValue ts arg)
    {rest : List (Lexeme α)} (hrest : EndsItem rest) (key : String) (m n : Nat)
    (us : List (Lexeme α)) : ts ++ rest ≠ wordAt key m :: mark .assign n :: us := by
  intro heq
  cases h with
  | quoted text n => cases heq
  | true n => cases heq; cases hrest
  | false n => cases heq; cases hrest
  | name htrue hfalse => cases heq; cases hrest
  | pair h => cases heq
  | list h hitems => cases heq
  | vector h h' => cases heq
  | number h =>
    have hstart := h.startsSum.append rest
    rw [heq] at hstart
    cases hstart

/-- An argument is read, if something follows it that may. -/
theorem ParameterReads.of_isParameter (lastLine : Nat) {ts rest : List (Lexeme α)}
    {item : Option String × Arg α} (h : IsParameter ts item) (hrest : EndsItem rest) :
    ParameterReads lastLine false (ts ++ rest) item rest := by
  cases h with
  | positional h =>
    exact .positional rfl (h.ne_keyword hrest) (reads_value_of_isValue lastLine h hrest)
  | keyword h => exact .keyword _ _ _ (reads_value_of_isValue lastLine h hrest)

omit [Numeral α] in
/-- No argument starts with a closing parenthesis. -/
theorem IsParameter.ne_close {ts : List (Lexeme α)} {item : Option String × Arg α}
    (h : IsParameter ts item) (rest : List (Lexeme α)) (n : Nat) (us : List (Lexeme α)) :
    ts ++ rest ≠ mark .rightParen n :: us := by
  cases h with
  | positional h => exact h.ne_close (.inl rfl) rest n us
  | keyword h => intro heq; cases heq

/-- **A statement is read**, whatever follows it. -/
theorem reads_statement_of_isStatement (lastLine : Nat) {ts : List (Lexeme α)} {c : Command α}
    (h : IsStatement ts c) (rest : List (Lexeme α)) :
    Reads (statement lastLine (ts ++ rest)) c rest := by
  cases h with
  | call hfront hargs hline =>
    rename_i front us binding verb args kwargs line k l m
    -- arguments up to the closing parenthesis
    have hargs' : ItemsRead .rightParen (ParameterReads lastLine false)
        (us ++ mark .rightParen m :: rest) (joined args kwargs) rest :=
      .of_commas hargs (.paren m rest) (fun _ _ hitem => hitem.ne_close)
        fun _ _ _ _ hitem hends => .of_isParameter lastLine hitem hends
    generalize htail : us ++ mark .rightParen m :: rest = tail at hargs'
    have hlexemes : front ++ wordAt verb k :: mark .leftParen l :: us ++ [mark .rightParen m] ++
        rest = front ++ wordAt verb k :: mark .leftParen l :: tail := by
      simp [← htail]
    -- the line is that of the first lexeme, of the binding or of the operation
    have hfirst : lineOf lastLine (front ++ wordAt verb k :: mark .leftParen l :: tail) = line := by
      cases front with
      | nil => exact Option.some.inj hline
      | cons t front => exact Option.some.inj hline
    rw [hlexemes, reads_statement_iff, splitBinding_append hfront, hfirst]
    exact ⟨verb, k, l, tail, ⟨args, kwargs⟩, rfl, reads_parameters_iff.2 hargs', rfl⟩

/-! ## Scripts -/

section

omit [Scalar α] [Numeral α]

/-- Separators at the front are skipped. -/
theorem skipSeparators_append {seps : List (Lexeme α)} (hseps : Separators seps)
    (ts : List (Lexeme α)) : skipSeparators (seps ++ ts) = skipSeparators ts := by
  refine List.dropWhile_append_of_pos fun t ht => ?_
  rw [Token.isSeparator_iff]
  exact hseps t ht

/-- Separators may follow a statement in front of what may. -/
theorem endsStatement_append {seps ts : List (Lexeme α)} (hseps : Separators seps)
    (hts : (current ts).endsStatement = true) : (current (seps ++ ts)).endsStatement = true := by
  cases seps with
  | nil => exact hts
  | cons t seps =>
    rw [List.cons_append, current_cons, hseps t List.mem_cons_self]
    rfl

end

/-- Separators and the end are a script without commands. -/
theorem commands_of_separators (lastLine : Nat) {seps : List (Lexeme α)} (hseps : Separators seps)
    (n : Nat) : commands lastLine (seps ++ [⟨.finish, n⟩]) = .ok [] := by
  refine commands_of_finish ?_
  rw [skipSeparators_append hseps]
  rfl

/-- Separators in front of lexemes change none of their commands. -/
theorem commands_separators_append (lastLine : Nat) {seps : List (Lexeme α)}
    (hseps : Separators seps) (ts : List (Lexeme α)) :
    commands lastLine (seps ++ ts) = commands lastLine ts := by
  rw [commands, commands, skipSeparators_append hseps]

/-- A statement is read before the commands of what follows it. -/
theorem commands_cons {lastLine : Nat} {seps ts us : List (Lexeme α)} {c : Command α}
    (hseps : Separators seps) (hc : IsStatement ts c)
    (hends : (current us).endsStatement = true) :
    commands lastLine (seps ++ ts ++ us) = (commands lastLine us).map (c :: ·) := by
  obtain ⟨text, n, vs, hts⟩ := hc.exists_ends.1
  -- separators are skipped up to the first word of the statement
  have hskip : skipSeparators (seps ++ ts ++ us) = ts ++ us := by
    rw [List.append_assoc, skipSeparators_append hseps, hts]
    rfl
  have hfinish : (current (skipSeparators (seps ++ ts ++ us))).isFinish = false := by
    rw [hskip, hts]
    rfl
  have hreads := reads_statement_of_isStatement lastLine hc us
  rw [← hskip] at hreads
  rw [commands_of_reads hfinish hreads, if_pos hends]

/-- Statements are read before the commands of what follows them. -/
theorem commands_append {lastLine : Nat} {before ts us : List (Lexeme α)} {cs : List (Command α)}
    (hbefore : Separators before) (h : IsStatements ts cs)
    (hends : (current us).endsStatement = true) :
    commands lastLine (before ++ ts ++ us) = (commands lastLine us).map (cs ++ ·) := by
  induction h generalizing before with
  | one hc => exact commands_cons hbefore hc hends
  | more hc hseps hne hs ih =>
    rename_i ts seps vs c cs
    -- a separator follows the first statement
    have hends' : (current (seps ++ vs ++ us)).endsStatement = true := by
      cases seps with
      | nil => exact absurd rfl hne
      | cons t seps =>
        rw [List.cons_append, List.cons_append, current_cons, hseps t List.mem_cons_self]
        rfl
    have hrest := ih hseps
    have hall : commands lastLine _ = _ := commands_cons hbefore hc hends'
    rw [hrest] at hall
    simp only [List.append_assoc] at hall ⊢
    rw [hall]
    cases commands lastLine us <;> rfl

/-- **A script is read with its commands.** -/
theorem commands_of_isProgram (lastLine : Nat) {ts : List (Lexeme α)} {cs : List (Command α)}
    (h : IsProgram ts cs) : commands lastLine ts = .ok cs := by
  cases h with
  | empty hseps => exact commands_of_separators lastLine hseps _
  | statements hbefore hs hafter =>
    rw [List.append_assoc, commands_append hbefore hs (endsStatement_append hafter rfl),
      commands_of_separators lastLine hafter]
    exact congrArg Except.ok (List.append_nil cs)

/-! ## Acceptance -/

/-- Lexemes have one reading as a script at most. -/
theorem IsProgram.unique {ts : List (Lexeme α)} {cs cs' : List (Command α)}
    (h : IsProgram ts cs) (h' : IsProgram ts cs') : cs = cs' :=
  Except.ok.inj ((commands_of_isProgram 0 h).symm.trans (commands_of_isProgram 0 h'))

/-- **The parser accepts exactly the scripts of the grammar**, and answers with the commands of
their derivations; all derivations of a script have the same commands. -/
theorem parseLexemes_eq_ok_iff {front : List (Lexeme α)} (hfront : ∀ t ∈ front, t.token ≠ .finish)
    (n : Nat) :
    (∀ cs, parseLexemes (front ++ [⟨.finish, n⟩]) = .ok cs ↔
      IsProgram (front ++ [⟨.finish, n⟩]) cs) ∧
      ∀ cs cs', IsProgram (front ++ [⟨.finish, n⟩]) cs →
        IsProgram (front ++ [⟨.finish, n⟩]) cs' → cs = cs' := by
  refine ⟨fun cs => ⟨fun h => ?_, fun h => ?_⟩, fun cs cs' => IsProgram.unique⟩
  · exact isProgram_of_commands ⟨front, n, rfl, hfront⟩ h
  · exact commands_of_isProgram _ h

/-- The call of an operation on a position is one command with a pair. -/
theorem parseLexemes_of_position :
    let front : List (Lexeme Float) := [wordAt "Point" 1, mark .leftParen 1, mark .leftBracket 1,
      ⟨.number 3, 1⟩, mark .comma 1, mark .minus 1, ⟨.number 4, 1⟩, mark .rightBracket 1,
      mark .rightParen 1]
    parseLexemes (front ++ [⟨.finish, 1⟩]) = .ok [⟨1, none, "Point", [.pair 3 (-4)], []⟩] := by
  intro front
  have hfront : ∀ t ∈ front, t.token ≠ .finish := by simp [front]
  have hfirst : IsValue [⟨.number 3, 1⟩] (.number (3 : Float)) :=
    .number (.product (.factor (.number 3 1)))
  have hsecond : IsValue [mark .minus 1, ⟨.number 4, 1⟩] (.number (-4 : Float)) :=
    .number (.product (.factor (.minus (.number 4 1))))
  have hitems : Commas IsValue [⟨.number 3, 1⟩, mark .comma 1, mark .minus 1, ⟨.number 4, 1⟩]
      [.number (3 : Float), .number (-4)] :=
    .cons hfirst (.last hsecond)
  have hargs : Commas IsParameter [mark .leftBracket 1, ⟨.number 3, 1⟩, mark .comma 1,
      mark .minus 1, ⟨.number 4, 1⟩, mark .rightBracket 1] (joined [.pair (3 : Float) (-4)] []) :=
    .last (.positional (.pair hitems))
  have hbinding : IsBinding ([] : List (Lexeme Float)) none := .none
  have hstatement : IsStatement front ⟨1, none, "Point", [.pair 3 (-4)], []⟩ :=
    .call (l := 1) (m := 1) (n := 1) hbinding hargs rfl
  have hnone : Separators ([] : List (Lexeme Float)) := fun t ht => nomatch ht
  exact ((parseLexemes_eq_ok_iff hfront 1).1 _).2 (.statements hnone (.one hstatement) hnone)

end Straightedge.Script
