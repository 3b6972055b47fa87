import Straightedge.Proofs.Script.Readers

/-! # What readers cannot tell apart

A reader looks at tokens from the front, and at the lines of lexemes only to report errors. On
lexemes that are related in a way that respects this, every reader answers alike: with one value and
related lexemes left, or with related errors.

* **`ReadAlike`**: relations between lexemes, and between errors, that readers respect.
* **`Alike`**: answers with related lexemes, or related errors; `Alike.bind` puts them together.
* **`ReadsItems.alike`**: readers of items between commas.
* **`alike_expression`**, **`alike_value`**, **`alike_parameters`**, **`alike_statement`**: the
  readers. -/

namespace Straightedge.Script

variable {α β γ δ σ : Type} {bound bound' : Nat}

/-! ## Relations -/

/-- **Lexemes that are read alike.** The first tokens agree, and behind a token within a statement
the lexemes are related again. An error is reported on the line of the lexeme that comes first, but
where a number is missing on the line of the lexeme behind it. -/
structure ReadAlike [Numeral α] (R : List (Lexeme α) → List (Lexeme α) → Prop)
    (E : ParseError → ParseError → Prop) (lastLine lastLine' : Nat) : Prop where
  nil : ∀ {us}, R [] us → us = []
  cons : ∀ {t ts us}, R (t :: ts) us →
    ∃ n vs, us = ⟨t.token, n⟩ :: vs ∧ (t.token.endsStatement = false → R ts vs)
  error : ∀ {ts us cause}, R ts us → (∀ found, cause ≠ .unexpectedToken "a number" found) →
    E ⟨lineOf lastLine ts, cause⟩ ⟨lineOf lastLine' us, cause⟩
  noNumber : ∀ {ts us}, R ts us →
    E ⟨lineOf lastLine ts.tail, .unexpectedToken "a number" (current ts).describe⟩
      ⟨lineOf lastLine' us.tail, .unexpectedToken "a number" (current us).describe⟩

/-- **Two answers alike**: a value, with related lexemes left, for which the other answer has the
value under `g`, or related errors. -/
inductive Alike (R : List (Lexeme α) → List (Lexeme α) → Prop) (E : ParseError → ParseError → Prop)
    (g : β → γ) :
    Except ParseError (Rest α β bound) → Except ParseError (Rest α γ bound') → Prop
  | ok (x : β) {rest rest' : List (Lexeme α)} (h : rest.length < bound) (h' : rest'.length < bound')
      (hrest : R rest rest') : Alike R E g (.ok ⟨x, rest, h⟩) (.ok ⟨g x, rest', h'⟩)
  | error {e e' : ParseError} (h : E e e') : Alike R E g (.error e) (.error e')

variable {R : List (Lexeme α) → List (Lexeme α) → Prop} {E : ParseError → ParseError → Prop}

namespace Alike

variable {bound₁ bound₁' : Nat}

/-- Steps that are alike, with continuations that are. -/
theorem bind {g : β → γ} {first : Except ParseError (Rest α δ bound₁)}
    {first' : Except ParseError (Rest α δ bound₁')}
    {next : Rest α δ bound₁ → Except ParseError (Rest α β bound)}
    {next' : Rest α δ bound₁' → Except ParseError (Rest α γ bound')}
    (hfirst : Alike R E id first first')
    (hnext : ∀ x {rest rest'} h h', R rest rest' →
      Alike R E g (next ⟨x, rest, h⟩) (next' ⟨x, rest', h'⟩)) :
    Alike R E g (first >>= next) (first' >>= next') := by
  cases hfirst with
  | ok x h h' hrest => exact hnext x h h' hrest
  | error he => exact .error he

/-- An answer with the value that it has to have. -/
theorem of_eq {g : β → γ} {x : β} {y : γ} (hvalue : y = g x) {rest rest' : List (Lexeme α)}
    (h : rest.length < bound) (h' : rest'.length < bound') (hrest : R rest rest') :
    Alike R E g (.ok ⟨x, rest, h⟩) (.ok ⟨y, rest', h'⟩) := by
  subst hvalue
  exact .ok x h h' hrest

/-- A last step that makes another value of the one that was read. -/
theorem map {first : Except ParseError (Rest α δ bound₁)}
    {first' : Except ParseError (Rest α δ bound₁')} {g : δ → β}
    {p : ∀ r : Rest α δ bound₁, r.lexemes.length < bound}
    {p' : ∀ r : Rest α δ bound₁', r.lexemes.length < bound'} (hfirst : Alike R E id first first') :
    Alike R E id (do let r ← first; return ⟨g r.value, r.lexemes, p r⟩)
      (do let r ← first'; return ⟨g r.value, r.lexemes, p' r⟩) :=
  hfirst.bind fun x _ _ _ _ hrest => .ok (g x) _ _ hrest

/-- A last step that keeps the value that was read. -/
theorem keep {first : Except ParseError (Rest α β bound₁)}
    {first' : Except ParseError (Rest α β bound₁')}
    {p : ∀ r : Rest α β bound₁, r.lexemes.length < bound}
    {p' : ∀ r : Rest α β bound₁', r.lexemes.length < bound'} (hfirst : Alike R E id first first') :
    Alike R E id (do let r ← first; return ⟨r.value, r.lexemes, p r⟩)
      (do let r ← first'; return ⟨r.value, r.lexemes, p' r⟩) :=
  hfirst.map (g := fun x => x)

/-- What is read is read alike. -/
theorem reads {g : β → γ} {answer : Except ParseError (Rest α β bound)}
    {answer' : Except ParseError (Rest α γ bound')} (h : Alike R E g answer answer') {x : β}
    {rest : List (Lexeme α)} (hreads : Reads answer x rest) :
    ∃ rest', Reads answer' (g x) rest' ∧ R rest rest' := by
  cases h with
  | ok y _ _ hrest =>
    obtain ⟨rfl, rfl⟩ := reads_ok_iff.1 hreads
    exact ⟨_, reads_ok_iff.2 ⟨rfl, rfl⟩, hrest⟩
  | error he => exact absurd hreads not_reads_error

/-- What fails fails alike. -/
theorem exists_error {g : β → γ} {answer : Except ParseError (Rest α β bound)}
    {answer' : Except ParseError (Rest α γ bound')} (h : Alike R E g answer answer')
    {e : ParseError} (herror : answer = .error e) : ∃ e', answer' = .error e' ∧ E e e' := by
  subst herror
  cases h with
  | error he => exact ⟨_, rfl, he⟩

end Alike

/-! ## Symbols -/

variable [Numeral α] {lastLine lastLine' : Nat} (hR : ReadAlike R E lastLine lastLine')
  {ts us : List (Lexeme α)}

include hR

namespace ReadAlike

theorem current_eq (h : R ts us) : current us = current ts := by
  cases ts with
  | nil => rw [hR.nil h]
  | cons t ts =>
    obtain ⟨n, vs, rfl, -⟩ := hR.cons h
    rfl

/-- Where a symbol does not stand, it does not stand in related lexemes. -/
theorem ne_mark (h : R ts us) {s : Symbol} (hts : ∀ n vs, ts ≠ mark s n :: vs) (n : Nat)
    (vs : List (Lexeme α)) : us ≠ mark s n :: vs := by
  rintro rfl
  cases ts with
  | nil => cases hR.nil h
  | cons t ts =>
    obtain ⟨token, m⟩ := t
    obtain ⟨_, _, heq, -⟩ := hR.cons h
    cases heq
    exact hts m ts rfl

theorem unexpected (h : R ts us) (g : β → γ) {wanted : String} (hwanted : wanted ≠ "a number") :
    Alike R E g (.error (unexpected lastLine wanted ts) : Except ParseError (Rest α β bound))
      (.error (Script.unexpected lastLine' wanted us) : Except ParseError (Rest α γ bound')) := by
  rw [Script.unexpected, Script.unexpected, hR.current_eq h]
  exact .error (hR.error h fun found heq => hwanted (Malformation.unexpectedToken.inj heq).1)

end ReadAlike

omit hR in
/-- No symbol is described as a number. -/
theorem describe_symbol_ne (s : Symbol) : (Token.symbol s : Token α).describe ≠ "a number" := by
  show "`" ++ s.char.toString ++ "`" ≠ "a number"
  cases s <;> decide

theorem alike_expect (h : R ts us) (s : Symbol) :
    Alike R E id (expect lastLine s ts) (expect lastLine' s us) := by
  rcases ts with _ | ⟨⟨token, m⟩, ts⟩
  · obtain rfl := hR.nil h
    exact hR.unexpected h _ (describe_symbol_ne s)
  obtain ⟨n, vs, rfl, htail⟩ := hR.cons h
  cases token with
  | symbol t =>
    by_cases hs : s = t
    · subst hs
      simp only [expect, if_true]
      exact .ok () _ _ (htail rfl)
    · simp only [expect, if_neg hs]
      exact hR.unexpected h _ (describe_symbol_ne s)
  | _ => exact hR.unexpected h _ (describe_symbol_ne s)

/-- **Readers of items read alike** if they read each item alike; by induction on the lexemes that
are left. -/
theorem ReadsItems.alike {close : Symbol} {wanted : String} {push : σ → δ → σ} {nil : γ}
    {cons : δ → γ → γ} {first first' : σ → ∀ ts : List (Lexeme α), Reading α δ ts}
    {reader reader' : σ → ∀ ts : List (Lexeme α), Reading α γ ts} {n : Nat}
    (hreader : ReadsItems lastLine close wanted push nil cons first reader)
    (hreader' : ReadsItems lastLine' close wanted push nil cons first' reader')
    (hwanted : wanted ≠ "a number")
    (hitem : ∀ s ts us, ts.length < n → R ts us → Alike R E id (first s ts) (first' s us)) (s : σ)
    (ts us : List (Lexeme α)) (hts : ts.length < n) (h : R ts us) :
    Alike R E id (reader s ts) (reader' s us) := by
  by_cases hclose : ∃ l vs, ts = mark close l :: vs
  · obtain ⟨l, vs, rfl⟩ := hclose
    obtain ⟨l', vs', rfl, htail⟩ := hR.cons h
    rw [hreader.closed, hreader'.closed]
    exact .ok nil _ _ (htail rfl)
  push Not at hclose
  obtain ⟨next, heq, hmore, hlast, hother⟩ := hreader.item s ts hclose
  obtain ⟨next', heq', hmore', hlast', hother'⟩ := hreader'.item s us (hR.ne_mark h hclose)
  rw [heq, heq']
  refine (hitem s ts us hts h).bind fun x mid mid' hmid hmid' hrest => ?_
  -- what follows the item decides: a comma, the closing symbol or something else
  by_cases hc : ∃ m vs, mid = mark .comma m :: vs
  · obtain ⟨m, vs, rfl⟩ := hc
    obtain ⟨m', vs', rfl, htail⟩ := hR.cons hrest
    obtain ⟨p, hnext⟩ := hmore x m vs hmid
    obtain ⟨p', hnext'⟩ := hmore' x m' vs' hmid'
    have hshorter : vs.length < ts.length := Nat.lt_of_succ_lt hmid
    rw [hnext, hnext']
    exact (ReadsItems.alike hreader hreader' hwanted hitem (push s x) vs vs'
      (Nat.lt_trans hshorter hts) (htail rfl)).map
  by_cases hl : ∃ m vs, mid = mark close m :: vs
  · obtain ⟨m, vs, rfl⟩ := hl
    obtain ⟨m', vs', rfl, htail⟩ := hR.cons hrest
    obtain ⟨p, hnext⟩ := hlast x m vs hmid
    obtain ⟨p', hnext'⟩ := hlast' x m' vs' hmid'
    rw [hnext, hnext']
    exact .ok _ _ _ (htail rfl)
  push Not at hc hl
  rw [hother x mid hmid hc hl, hother' x mid' hmid' (hR.ne_mark hrest hc) (hR.ne_mark hrest hl)]
  exact hR.unexpected hrest _ hwanted
termination_by ts.length

/-! ## Expressions -/

variable [Scalar α]

omit [Numeral α] hR in
/-- What is wrong with the call of a function is not a missing number. -/
theorem callFunction_ne_unexpectedToken {name : String} {xs : List α} {cause : Malformation}
    (h : callFunction name xs = .error cause) (wanted found : String) :
    cause ≠ .unexpectedToken wanted found := by
  rintro rfl
  unfold callFunction callUnary at h
  split at h
  case h_6 => split at h <;> cases h
  case h_7 => cases h
  all_goals split at h <;> cases h

omit hR in
/-- Expressions of less than `n` lexemes are read alike. -/
def ExpressionsAlike (R : List (Lexeme α) → List (Lexeme α) → Prop)
    (E : ParseError → ParseError → Prop) (lastLine lastLine' n : Nat) : Prop :=
  ∀ (least : Nat) (ts us : List (Lexeme α)), ts.length < n → R ts us →
    Alike R E id (expression lastLine least ts) (expression lastLine' least us)

variable {n : Nat}

theorem alike_climb (ih : ExpressionsAlike R E lastLine lastLine' n) (least : Nat) :
    ∀ (left : α) (ts us : List (Lexeme α)), ts.length ≤ n → R ts us →
      Alike R E id (climb lastLine least left ts) (climb lastLine' least left us)
  | left, [], us, _, h => by
    obtain rfl := hR.nil h
    rw [climb, climb]
    exact .ok left _ _ h
  | left, ⟨token, l⟩ :: ts, us, hts, h => by
    obtain ⟨l', vs, rfl, htail⟩ := hR.cons h
    rw [climb, climb]
    cases ho : Operator.ofToken? token with
    | none => exact .ok left _ _ h
    | some o =>
      simp only
      by_cases hleast : o.precedence < least
      · rw [if_pos hleast, if_pos hleast]
        exact .ok left _ _ h
      · rw [if_neg hleast, if_neg hleast]
        rw [List.length_cons] at hts
        have hinside : token.endsStatement = false := by
          cases token <;> first | rfl | cases ho
        refine (ih _ ts vs hts (htail hinside)).bind fun y mid mid' hlt _ hmid => ?_
        exact (alike_climb ih least (o.apply left y) mid mid' (by omega) hmid).keep
termination_by _ ts => ts.length

theorem alike_arguments (ih : ExpressionsAlike R E lastLine lastLine' n) (ts us : List (Lexeme α))
    (hts : ts.length < n) (h : R ts us) :
    Alike R E id (arguments lastLine ts) (arguments lastLine' us) :=
  (readsItems_arguments lastLine).alike hR (readsItems_arguments lastLine') (by decide)
    (fun _ => ih 0) () ts us hts h

theorem alike_atom (ih : ExpressionsAlike R E lastLine lastLine' n) (ts us : List (Lexeme α))
    (hts : ts.length ≤ n) (h : R ts us) : Alike R E id (atom lastLine ts) (atom lastLine' us) := by
  rcases ts with _ | ⟨⟨token, l⟩, ts⟩
  · obtain rfl := hR.nil h
    rw [atom, atom]
    exact .error (hR.noNumber h)
  obtain ⟨l', vs, rfl, htail⟩ := hR.cons h
  rw [List.length_cons] at hts
  cases token with
  | number x =>
    rw [atom, atom]
    exact .ok x _ _ (htail rfl)
  | word g =>
    rw [atom, atom]
    refine (alike_expect hR (htail rfl) .leftParen).bind fun _ ws ws' hlt _ hws => ?_
    refine (alike_arguments hR ih ws ws' (by omega) hws).bind fun xs rest rest' _ _ hrest => ?_
    simp only
    cases hcall : callFunction g xs with
    | ok x => exact .ok x _ _ hrest
    | error cause =>
      exact .error (hR.error hrest fun found => callFunction_ne_unexpectedToken hcall _ found)
  | symbol s =>
    cases s with
    | minus => rw [atom, atom]; exact (ih signPrecedence ts vs hts (htail rfl)).map
    | plus => rw [atom, atom]; exact (ih signPrecedence ts vs hts (htail rfl)).keep
    | leftParen =>
      rw [atom, atom]
      refine (ih 0 ts vs hts (htail rfl)).bind fun x mid mid' _ _ hmid => ?_
      exact (alike_expect hR hmid .rightParen).bind fun _ _ _ _ _ hrest => .ok x _ _ hrest
    | _ => simp only [atom]; exact .error (hR.noNumber h)
  | _ => simp only [atom]; exact .error (hR.noNumber h)

/-- **Every expression is read alike**, by induction on the number of lexemes. -/
theorem expressionsAlike (n : Nat) : ExpressionsAlike R E lastLine lastLine' n := by
  induction n with
  | zero => exact fun _ _ _ hts => absurd hts (Nat.not_lt_zero _)
  | succ n ih =>
    intro least ts us hts h
    have hle : ts.length ≤ n := Nat.le_of_lt_succ hts
    rw [expression, expression]
    refine (alike_atom hR ih ts us hle h).bind fun x mid mid' hlt _ hmid => ?_
    exact (alike_climb hR ih least x mid mid' (by omega) hmid).keep

theorem alike_expression (least : Nat) (h : R ts us) :
    Alike R E id (expression lastLine least ts) (expression lastLine' least us) :=
  expressionsAlike hR (ts.length + 1) least ts us (Nat.lt_succ_self _) h

/-! ## Values -/

theorem alike_listItems (ts us : List (Lexeme α)) (h : R ts us)
    (ih : ∀ vs vs' : List (Lexeme α), vs.length ≤ ts.length → R vs vs' →
      Alike R E id (value lastLine vs) (value lastLine' vs')) :
    Alike R E id (listItems lastLine ts) (listItems lastLine' us) :=
  (readsItems_listItems lastLine).alike hR (readsItems_listItems lastLine') (by decide)
    (fun _ vs vs' hvs => ih vs vs' (Nat.le_of_lt_succ hvs)) () ts us (Nat.lt_succ_self _) h

/-- **Every value is read alike**, by induction on the number of lexemes. -/
theorem alike_value : ∀ ts us : List (Lexeme α), R ts us →
    Alike R E id (value lastLine ts) (value lastLine' us)
  | [], us, h => by
    obtain rfl := hR.nil h
    rw [value, value]
    · exact (alike_expression hR 0 h).map
    all_goals intros; contradiction
  | ⟨token, l⟩ :: ts, us, h => by
    have hcurrent := fun vs (hvs : R ts vs) => hR.current_eq hvs
    have hnumber := alike_expression hR 0 h
    obtain ⟨l', vs, rfl, htail⟩ := hR.cons h
    cases token with
    | quoted text =>
      rw [value, value]
      exact .ok _ _ _ (htail rfl)
    | word text =>
      rw [value, value, hcurrent vs (htail rfl)]
      by_cases hparen : (current ts).isSymbol .leftParen = true
      · rw [if_pos hparen, if_pos hparen]
        exact hnumber.map
      · rw [if_neg hparen, if_neg hparen]
        exact .ok _ _ _ (htail rfl)
    | symbol s =>
      cases s with
      | leftBracket =>
        rw [value, value]
        exact (alike_listItems hR ts vs (htail rfl) fun ws ws' hws => alike_value ws ws').map
      | leftAngle =>
        rw [value, value]
        refine (alike_expression hR 0 (htail rfl)).bind fun x _ _ _ _ h₁ => ?_
        refine (alike_expect hR h₁ .comma).bind fun _ _ _ _ _ h₂ => ?_
        refine (alike_expression hR 0 h₂).bind fun y _ _ _ _ h₃ => ?_
        exact (alike_expect hR h₃ .rightAngle).bind fun _ _ _ _ _ hrest => .ok _ _ _ hrest
      | _ => simp only [value]; exact hnumber.map
    | _ => simp only [value]; exact hnumber.map
termination_by ts => ts.length

/-! ## Statements -/

theorem alike_parameter (keyworded : Bool) (h : R ts us) :
    Alike R E id (parameter lastLine keyworded ts) (parameter lastLine' keyworded us) := by
  by_cases hkey : ∃ key m n vs, ts = wordAt key m :: mark .assign n :: vs
  · obtain ⟨key, m, n, vs, rfl⟩ := hkey
    obtain ⟨m', _, rfl, htail⟩ := hR.cons h
    obtain ⟨n', vs', rfl, htail'⟩ := hR.cons (htail rfl)
    exact (alike_value hR vs vs' (htail' rfl)).map
  push Not at hkey
  -- without a keyword in front this is a positional argument
  have hkey' : ∀ key m n vs, us ≠ wordAt key m :: mark .assign n :: vs := by
    rintro key m n vs rfl
    rcases ts with _ | ⟨⟨token, m'⟩, ts⟩
    · cases hR.nil h
    obtain ⟨_, _, heq, htail⟩ := hR.cons h
    cases heq
    exact hR.ne_mark (htail rfl) (fun n' vs' heq => hkey key m' n' vs' (by rw [heq])) n vs rfl
  rw [parameter, parameter]
  · cases keyworded with
    | true => exact .error (hR.error h nofun)
    | false => exact (alike_value hR ts us h).map
  · exact hkey'
  · exact hkey

theorem alike_parameters (keyworded : Bool) (ts us : List (Lexeme α)) (h : R ts us) :
    Alike R E id (parameters lastLine keyworded ts) (parameters lastLine' keyworded us) :=
  (readsItems_parameters lastLine).alike hR (readsItems_parameters lastLine') (by decide)
    (fun keyworded _ _ _ => alike_parameter hR keyworded) keyworded ts us (Nat.lt_succ_self _) h

omit [Scalar α] in
theorem alike_verbWord (h : R ts us) :
    Alike R E id (verbWord lastLine ts) (verbWord lastLine' us) := by
  rcases ts with _ | ⟨⟨token, l⟩, ts⟩
  · obtain rfl := hR.nil h
    exact hR.unexpected h _ (by decide)
  obtain ⟨l', vs, rfl, htail⟩ := hR.cons h
  cases token with
  | word verb => exact .ok verb _ _ (htail rfl)
  | _ => exact hR.unexpected h _ (by decide)

omit [Scalar α] in
/-- The same binding is split off, and related lexemes are left. -/
theorem splitBinding_alike (h : R ts us) :
    (splitBinding us).1 = (splitBinding ts).1 ∧ R (splitBinding ts).2 (splitBinding us).2 := by
  rcases ts with _ | ⟨⟨first, l⟩, ts⟩
  · obtain rfl := hR.nil h
    exact ⟨rfl, h⟩
  obtain ⟨l', us, rfl, htail⟩ := hR.cons h
  cases first with
  | word keyword =>
    have h₁ := htail rfl
    rcases ts with _ | ⟨⟨second, m⟩, ts⟩
    · obtain rfl := hR.nil h₁
      exact ⟨rfl, h⟩
    obtain ⟨m', us, rfl, htail₁⟩ := hR.cons h₁
    cases second with
    | symbol s =>
      cases s with
      | assign => exact ⟨rfl, htail₁ rfl⟩
      | _ => exact ⟨rfl, h⟩
    | word bound =>
      have h₂ := htail₁ rfl
      rcases ts with _ | ⟨⟨third, n⟩, ts⟩
      · obtain rfl := hR.nil h₂
        exact ⟨rfl, h⟩
      obtain ⟨n', us, rfl, htail₂⟩ := hR.cons h₂
      cases third with
      | symbol s =>
        cases s with
        | assign =>
          simp only [splitBinding]
          split
          · exact ⟨rfl, htail₂ rfl⟩
          · exact ⟨rfl, h⟩
        | _ => exact ⟨rfl, h⟩
      | _ => exact ⟨rfl, h⟩
    | _ => exact ⟨rfl, h⟩
  | _ => exact ⟨rfl, h⟩

/-- **Every statement is read alike**, but for the line of its command. -/
theorem alike_statement (h : R ts us) :
    Alike R E (fun c => { c with line := lineOf lastLine' us }) (statement lastLine ts)
      (statement lastLine' us) := by
  obtain ⟨hbinding, hcall⟩ := splitBinding_alike hR h
  unfold statement
  refine (alike_verbWord hR hcall).bind fun verb _ _ _ _ h₁ => ?_
  refine (alike_expect hR h₁ .leftParen).bind fun _ vs vs' _ _ h₂ => ?_
  refine (alike_parameters hR false vs vs' h₂).bind fun ps _ _ _ _ hrest => .of_eq ?_ _ _ hrest
  simp only [hbinding]

end Straightedge.Script
