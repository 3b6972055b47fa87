import Mathlib.Data.List.Chain
import Straightedge.Proofs.Script.Composition

/-! # Lines of errors

The lexemes of a statement are all on one line, and what is wrong with the statement is reported on
that line, whichever reader finds it. There is one exception: where a number is missing at the end
of a statement, the reader has already gone past the separator, and a separator may be a line break.

* **`Remains`**, **`Stops`**: what is left of a statement, and what stops it.
* **`Reported`**: errors on the line of a statement, and the exception.
* **`readAlike_remains`**: no reader leaves the statement or reports anything else.
* **`Fails`**: the first lexemes between separators that are no statement; `Fails.unique` tells that
  there is one choice.
* **`parse_error_line`**: errors of scripts are reported on the line of those lexemes, with the one
  exception. -/

namespace Straightedge.Script

variable {α : Type}

/-! ## Inside a statement -/

/-- **What is left of a statement**: lexemes on the line `n`, and behind them `after`. -/
inductive Remains (n : Nat) (after : List (Lexeme α)) : List (Lexeme α) → Prop
  | stop : Remains n after after
  | cons {token : Token α} {ts : List (Lexeme α)} (htoken : token.endsStatement = false)
      (hts : Remains n after ts) : Remains n after (⟨token, n⟩ :: ts)

/-- **What stops a statement on the line `n`**: a separator, or the end of the script, behind which
there is nothing. -/
inductive Stops (lastLine n : Nat) : List (Lexeme α) → Prop
  | separator (below : List (Lexeme α)) : Stops lastLine n (⟨.separator, n⟩ :: below)
  | finish (h : lastLine = n) : Stops lastLine n [⟨.finish, n⟩]

/-- A number is missing at the end of a statement. -/
def noNumber : Malformation := .unexpectedToken "a number" "end of statement"

/-- **An error in a statement on the line `n` in front of `after`**: it is reported on that line, or
a number is missing at a separator, and it is reported on the line of what comes behind that. -/
inductive Reported (lastLine n : Nat) (after : List (Lexeme α)) : ParseError → Prop
  | here {cause : Malformation} (h : cause ≠ noNumber) : Reported lastLine n after ⟨n, cause⟩
  | behind {below : List (Lexeme α)} (h : after = ⟨.separator, n⟩ :: below) :
      Reported lastLine n after ⟨lineOf lastLine below, noNumber⟩

section

variable {lastLine n : Nat} {after ts : List (Lexeme α)}

namespace Remains

/-- The lexemes that are left, and what stops them. -/
theorem exists_append (h : Remains n after ts) : ∃ inside, ts = inside ++ after ∧
    ∀ t ∈ inside, t.line = n ∧ t.token.endsStatement = false := by
  induction h with
  | stop => exact ⟨[], rfl, List.forall_mem_nil _⟩
  | cons htoken _ ih =>
    obtain ⟨inside, rfl, hinside⟩ := ih
    exact ⟨_ :: inside, rfl, List.forall_mem_cons.2 ⟨⟨rfl, htoken⟩, hinside⟩⟩

theorem of_append {inside : List (Lexeme α)}
    (h : ∀ t ∈ inside, t.line = n ∧ t.token.endsStatement = false) :
    Remains n after (inside ++ after) := by
  induction inside with
  | nil => exact .stop
  | cons t inside ih =>
    obtain ⟨⟨rfl, ht⟩, hinside⟩ := List.forall_mem_cons.1 h
    exact .cons ht (ih hinside)

/-- Where a statement may stop, nothing of it is left. -/
theorem eq_of_endsStatement (h : Remains n after ts) (hts : (current ts).endsStatement = true) :
    ts = after := by
  cases h with
  | stop => rfl
  | cons htoken _ => cases hts.symm.trans htoken

theorem lineOf_eq (h : Remains n after ts) (hafter : Stops lastLine n after) :
    lineOf lastLine ts = n := by
  cases h with
  | stop => cases hafter <;> rfl
  | cons _ _ => rfl

/-- Behind a lexeme of a statement there is less of the statement left. -/
theorem tail {t : Lexeme α} (h : Remains n after (t :: ts)) (hafter : Stops lastLine n after)
    (ht : t.token.endsStatement = false) : Remains n after ts := by
  cases h with
  | stop => cases hafter <;> cases ht
  | cons _ hts => exact hts

end Remains

theorem Stops.endsStatement (h : Stops lastLine n after) :
    (current after).endsStatement = true := by
  cases h <;> rfl

end

section

variable [Numeral α] {lastLine n : Nat} {after : List (Lexeme α)}

/-- No token within a statement is described as its end. -/
theorem describe_ne_of_inside {token : Token α} (h : token.endsStatement = false) :
    token.describe ≠ "end of statement" := by
  intro heq
  have hfirst := congrArg (·.toList.head?) heq
  cases token with
  | number x => simp [Token.describe] at hfirst
  | word text => simp [Token.describe] at hfirst
  | quoted text => simp [Token.describe] at hfirst
  | symbol s => simp [Token.describe] at hfirst
  | separator => cases h
  | finish => cases h

/-- **No reader leaves a statement**, and errors are reported accordingly. -/
theorem readAlike_remains (hafter : Stops lastLine n after) :
    ReadAlike (fun ts us => us = ts ∧ Remains n after ts)
      (fun e e' => e' = e ∧ Reported lastLine n after e) lastLine lastLine where
  nil h := h.1
  cons {t ts us} h := ⟨t.line, ts, h.1, fun ht => ⟨rfl, h.2.tail hafter ht⟩⟩
  error {ts us cause} h hcause := by
    obtain ⟨rfl, hts⟩ := h
    rw [hts.lineOf_eq hafter]
    exact ⟨rfl, .here (hcause _)⟩
  noNumber {ts us} h := by
    obtain ⟨rfl, hts⟩ := h
    refine ⟨rfl, ?_⟩
    cases hts with
    | stop =>
      cases hafter with
      | separator below => exact .behind rfl
      | finish h =>
        have hne : Malformation.unexpectedToken "a number" "end of input" ≠ noNumber := by decide
        exact h ▸ .here hne
    | cons htoken hts =>
      rw [List.tail_cons, hts.lineOf_eq hafter]
      exact .here fun heq => describe_ne_of_inside htoken (Malformation.unexpectedToken.inj heq).2

/-- What a statement leaves is left of it, and its errors are reported accordingly. -/
theorem remains_or_reported [Scalar α] (hafter : Stops lastLine n after) {ts : List (Lexeme α)}
    (hts : Remains n after ts) :
    (∀ c rest, Reads (statement lastLine ts) c rest → Remains n after rest) ∧
      ∀ e, statement lastLine ts = .error e → Reported lastLine n after e := by
  have halike := alike_statement (readAlike_remains hafter) ⟨rfl, hts⟩
  constructor
  · intro c rest hreads
    obtain ⟨_, -, -, hrest⟩ := halike.reads hreads
    exact hrest
  · intro e herror
    obtain ⟨_, -, -, he⟩ := halike.exists_error herror
    exact he

end

/-! ## Lines of lexemes -/

/-- **What may come behind a lexeme**: a lexeme on the same line or, behind a separator, on the next
one. -/
def Lexeme.Precedes (t u : Lexeme α) : Prop :=
  u.line = t.line ∨ t.token = .separator ∧ u.line = t.line + 1

theorem line_head?_numbered {m : Nat} {parts : List (Part α)} {t : Lexeme α}
    (h : t ∈ (numbered m parts).head?) : t.line = m := by
  obtain ⟨u, hu, hline⟩ := nextToken?_numbered_nil m parts
  rw [nextToken?, List.filterMap_nil, List.length_nil, ← List.head?_eq_getElem?] at hu
  rwa [← Option.some.inj (hu.symm.trans h)]

/-- Only line breaks lead to the next line, and they are separators. -/
theorem isChain_numbered (m : Nat) (parts : List (Part α)) :
    (numbered m parts).IsChain Lexeme.Precedes := by
  induction parts generalizing m with
  | nil => exact List.isChain_singleton _
  | cons part parts ih =>
    obtain ⟨p, text⟩ := part
    cases p with
    | gap => exact ih m
    | lineBreak =>
      refine List.isChain_cons.2 ⟨fun u hu => ?_, ih (m + 1)⟩
      exact .inr ⟨rfl, line_head?_numbered hu⟩
    | token t =>
      refine List.isChain_cons.2 ⟨fun u hu => ?_, ih m⟩
      exact .inl (line_head?_numbered hu)

/-- **Lexemes as they come from a source**: their lines go on behind separators only, and the end of
the script comes last. -/
structure WellNumbered (lastLine : Nat) (ts : List (Lexeme α)) : Prop where
  endsOnce : EndsOnce ts
  isChain : ts.IsChain Lexeme.Precedes
  lastLineOf_eq : lastLineOf ts = lastLine

theorem wellNumbered_of_tokenize [Scalar α] {source : String} {lexemes : List (Lexeme α)}
    (h : tokenize source = .ok lexemes) : WellNumbered (lastLineOf lexemes) lexemes := by
  obtain ⟨front, last, rfl, hfront, -⟩ := tokensFrom_append h
  obtain ⟨parts, -, hparts⟩ := tokensFrom_eq_ok_iff.1 h
  exact ⟨⟨front, last, rfl, hfront⟩, hparts ▸ isChain_numbered 1 parts, rfl⟩

namespace WellNumbered

variable {lastLine : Nat} {t : Lexeme α} {front ts : List (Lexeme α)}

theorem ne_nil (h : WellNumbered lastLine ts) : ts ≠ [] := by
  obtain ⟨front, m, rfl, -⟩ := h.endsOnce
  exact List.append_ne_nil_of_right_ne_nil _ (List.cons_ne_nil _ _)

/-- What comes behind other lexemes is numbered like them. -/
theorem of_append (h : WellNumbered lastLine (front ++ ts)) (hends : EndsOnce ts) :
    WellNumbered lastLine ts where
  endsOnce := hends
  isChain := h.isChain.right_of_append
  lastLineOf_eq := by
    obtain ⟨us, m, rfl, -⟩ := hends
    rw [← h.lastLineOf_eq, lastLineOf_append front (by simp)]

/-- Within a statement the next lexeme is on the same line. -/
theorem tail (h : WellNumbered lastLine (t :: ts)) (ht : t.token.endsStatement = false) :
    WellNumbered lastLine ts ∧ lineOf lastLine ts = t.line := by
  have hends := h.endsOnce.of_append_cons fun hfinish => by
    rw [hfinish] at ht
    cases ht
  refine ⟨(show WellNumbered lastLine ([t] ++ ts) from h).of_append hends, ?_⟩
  obtain ⟨hhead, -⟩ := List.isChain_cons.1 h.isChain
  cases ts with
  | nil =>
    obtain ⟨front, m, heq, -⟩ := hends
    simp at heq
  | cons u us =>
    rcases hhead u rfl with hu | ⟨hseparator, -⟩
    · exact hu
    · rw [hseparator] at ht
      cases ht

/-- **At the front there is what is left of a statement**, on the line of the first lexeme. -/
theorem exists_remains (h : WellNumbered lastLine ts) :
    ∃ after, Stops lastLine (lineOf lastLine ts) after ∧ Remains (lineOf lastLine ts) after ts := by
  induction ts with
  | nil => exact absurd rfl h.ne_nil
  | cons t ts ih =>
    cases ht : t.token.endsStatement with
    | true =>
      refine ⟨_, ?_, .stop⟩
      obtain ⟨token, m⟩ := t
      cases token with
      | separator => exact .separator ts
      | finish =>
        obtain ⟨_, heq⟩ := h.endsOnce.eq_of_finish rfl
        cases heq
        exact .finish h.lastLineOf_eq.symm
      | _ => cases ht
    | false =>
      obtain ⟨htail, hline⟩ := h.tail ht
      obtain ⟨after, hafter, hremains⟩ := ih htail
      rw [hline] at hafter hremains
      exact ⟨after, hafter, .cons ht hremains⟩

end WellNumbered

/-! ## The statement that is none -/

/-- **The first lexemes that are no statement**: `failing` is at the front or behind a script of its
own, which a separator stops instead of the end; it reaches up to the next separator or the end; and
it is not spelled like any statement. -/
structure Fails [Scalar α] (before failing after : List (Lexeme α)) : Prop where
  script_before : before = [] ∨ ∃ front m cs, before = front ++ [⟨.separator, m⟩] ∧
    IsProgram (front ++ [⟨.finish, m⟩]) cs
  ne_nil : failing ≠ []
  inside : ∀ t ∈ failing, t.token.endsStatement = false
  stops : (current after).endsStatement = true
  not_isStatement : ∀ c, ¬IsStatement failing c

/-- What comes behind skipped separators is no separator. -/
theorem isSeparator_current_skipSeparators (ts : List (Lexeme α)) :
    (current (skipSeparators ts)).isSeparator = false := by
  induction ts with
  | nil => rfl
  | cons t ts ih =>
    rw [skipSeparators, List.dropWhile_cons]
    split
    · exact ih
    · rename_i ht
      exact eq_false_of_ne_true ht

variable [Scalar α] {lastLine n : Nat} {after inside : List (Lexeme α)}

/-- **An error of a script**: the first lexemes that are no statement are on one line, and the error
is reported accordingly. -/
def FailsWith (lastLine : Nat) (ts : List (Lexeme α)) (e : ParseError) : Prop :=
  ∃ n before failing after, ts = before ++ failing ++ after ∧ Fails before failing after ∧
    (∀ t ∈ failing, t.line = n) ∧ Stops lastLine n after ∧ Reported lastLine n after e

/-- Behind separators lexemes fail that are no statement. -/
theorem failsWith_of_separators {seps : List (Lexeme α)} {e : ParseError} (hseps : Separators seps)
    (hafter : Stops lastLine n after)
    (hinside : ∀ t ∈ inside, t.line = n ∧ t.token.endsStatement = false) (hne : inside ≠ [])
    (hnot : ∀ c, ¬IsStatement inside c) (he : Reported lastLine n after e) :
    FailsWith lastLine (seps ++ (inside ++ after)) e := by
  refine ⟨n, seps, inside, after, (List.append_assoc ..).symm, ?_, fun t ht => (hinside t ht).1,
    hafter, he⟩
  refine ⟨?_, hne, fun t ht => (hinside t ht).2, hafter.endsStatement, hnot⟩
  rcases List.eq_nil_or_concat seps with rfl | ⟨front, t, rfl⟩
  · exact .inl rfl
  · rw [List.concat_eq_append] at hseps ⊢
    obtain ⟨token, m⟩ := t
    cases hseps ⟨token, m⟩ (by simp)
    have hfront : Separators front := fun u hu => hseps u (List.mem_append_left _ hu)
    exact .inr ⟨front, m, [], rfl, .empty hfront⟩

/-- What fails behind a statement fails behind a script. -/
theorem FailsWith.cons {seps used rest : List (Lexeme α)} {c : Command α} {e : ParseError}
    (h : FailsWith lastLine rest e) (hseps : Separators seps) (hc : IsStatement used c)
    (hrest : (current rest).endsStatement = true) :
    FailsWith lastLine (seps ++ (used ++ rest)) e := by
  obtain ⟨n, before, failing, after, rfl, hfails, hline, hafter, he⟩ := h
  refine ⟨n, seps ++ used ++ before, failing, after, by simp only [List.append_assoc], ?_, hline,
    hafter, he⟩
  rcases hfails.script_before with rfl | ⟨front, m, cs, rfl, hprogram⟩
  · -- what fails does not start with a separator
    obtain ⟨t, ts, rfl⟩ := List.exists_cons_of_ne_nil hfails.ne_nil
    have ht := hfails.inside t List.mem_cons_self
    rw [show t.token.endsStatement = true from hrest] at ht
    cases ht
  · have hends : (current (front ++ [⟨.finish, m⟩])).endsStatement = true := by
      cases front with
      | nil => rfl
      | cons t front => exact hrest
    have hall := IsProgram.cons hseps hc hprogram hends
    rw [← List.append_assoc] at hall
    exact { hfails with
      script_before := .inr ⟨seps ++ used ++ front, m, _, (List.append_assoc ..).symm, hall⟩ }

variable [Numeral α]

/-- What is not read is no statement. -/
theorem not_isStatement_of_error {e : ParseError}
    (h : statement lastLine (inside ++ after) = .error e) (c : Command α) :
    ¬IsStatement inside c := by
  intro hc
  obtain ⟨_, hok⟩ := reads_statement_of_isStatement lastLine hc after
  cases h.symm.trans hok

/-- A statement is read up to where it stops. -/
theorem not_isStatement_of_reads {c : Command α} {rest : List (Lexeme α)}
    (h : Reads (statement lastLine (inside ++ after)) c rest)
    (hstops : (current after).endsStatement = true)
    (hrest : (current rest).endsStatement = false) (d : Command α) : ¬IsStatement inside d := by
  intro hd
  obtain ⟨_, hread⟩ := h
  obtain ⟨_, hall⟩ := reads_statement_of_isStatement lastLine hd after
  cases hread.symm.trans hall
  rw [hstops] at hrest
  cases hrest

/-- **Where reading fails there are first lexemes that are no statement**, by induction on the
statements before them. -/
theorem failsWith_of_error {ts : List (Lexeme α)} {e : ParseError} (hts : WellNumbered lastLine ts)
    (h : commands lastLine ts = .error e) : FailsWith lastLine ts e := by
  induction hlength : ts.length using Nat.strongRecOn generalizing ts with
  | ind length ih =>
  obtain ⟨seps, hsplit, hseps⟩ := exists_separators_append ts
  have hnoSeparator := isSeparator_current_skipSeparators ts
  have hshorter := length_skipSeparators_le ts
  cases hfinish : (current (skipSeparators ts)).isFinish with
  | true =>
    rw [commands_of_finish hfinish] at h
    cases h
  | false =>
    rw [hsplit] at hts
    have hskip := hts.of_append (hts.endsOnce.of_separators hseps)
    -- what should be a statement reaches up to a separator or the end
    obtain ⟨after, hafter, hremains⟩ := hskip.exists_remains
    generalize lineOf lastLine (skipSeparators ts) = n at hafter hremains
    obtain ⟨hreads, herror⟩ := remains_or_reported hafter hremains
    obtain ⟨inside, heq, hinside⟩ := hremains.exists_append
    have hne : inside ≠ [] := by
      rintro rfl
      rw [heq, List.nil_append] at hfinish hnoSeparator
      cases hafter with
      | separator below => cases hnoSeparator
      | finish _ => cases hfinish
    rw [hsplit]
    cases hstatement : statement lastLine (skipSeparators ts) with
    | error e' =>
      rw [commands_of_error hfinish hstatement] at h
      cases h
      have hreported := herror _ hstatement
      rw [heq] at hstatement ⊢
      exact failsWith_of_separators hseps hafter hinside hne (not_isStatement_of_error hstatement)
        hreported
    | ok read =>
      obtain ⟨c, rest, hlt⟩ := read
      have hread : Reads (statement lastLine (skipSeparators ts)) c rest := ⟨hlt, hstatement⟩
      rw [commands_of_reads hfinish hread] at h
      cases hrest : (current rest).endsStatement with
      | true =>
        -- the statement is one, so it is what follows it that fails
        rw [if_pos hrest] at h
        obtain ⟨used, hused, hc⟩ := isStatement_of_reads hread
        rw [hused] at hskip ⊢
        refine FailsWith.cons (ih rest.length (by omega) ?_ ?_ rfl) hseps hc hrest
        · exact hskip.of_append (hskip.endsOnce.of_isStatement hc)
        · cases hmore : commands lastLine rest with
          | error e' => rw [hmore] at h; exact h
          | ok cs => rw [hmore] at h; cases h
      | false =>
        -- the statement goes on where it should stop
        rw [if_neg (by rw [hrest]; exact Bool.false_ne_true)] at h
        cases h
        have hreported :
            Reported lastLine n after (unexpected lastLine "end of statement" rest) := by
          rw [unexpected, (hreads c rest hread).lineOf_eq hafter]
          exact .here fun hcause =>
            absurd (Malformation.unexpectedToken.inj hcause).1 (by decide)
        rw [heq] at hread ⊢
        exact failsWith_of_separators hseps hafter hinside hne
          (not_isStatement_of_reads hread hafter.endsStatement hrest) hreported

/-! ## No other choice -/

section

omit [Scalar α] [Numeral α]

/-- Behind lexemes of a statement the first separator or end stops it. -/
theorem dropWhile_inside (hinside : ∀ t ∈ inside, t.token.endsStatement = false)
    (hafter : (current after).endsStatement = true) :
    (inside ++ after).dropWhile (fun t => !t.token.endsStatement) = after := by
  rw [List.dropWhile_append_of_pos fun t ht => by rw [hinside t ht]; rfl]
  cases after with
  | nil => rfl
  | cons t after =>
    rw [current_cons] at hafter
    rw [List.dropWhile_cons, hafter]
    rfl

/-- The end of the script comes last. -/
theorem EndsOnce.of_append_of_ne_nil {front ts : List (Lexeme α)} (h : EndsOnce (front ++ ts))
    (hts : ts ≠ []) : (∀ t ∈ front, t.token ≠ .finish) ∧ EndsOnce ts := by
  obtain ⟨us, n, heq, hus⟩ := h
  obtain ⟨init, last, rfl⟩ := (List.eq_nil_or_concat ts).resolve_left hts
  rw [List.concat_eq_append, ← List.append_assoc] at heq
  obtain ⟨rfl, hlast⟩ := List.append_inj' heq rfl
  rw [List.forall_mem_append] at hus
  exact ⟨hus.1, init, n, by rw [List.concat_eq_append, hlast], hus.2⟩

end

/-- **No script goes on like this**: behind the failing lexemes it may neither stop nor go on. -/
theorem Fails.not_isProgram {before tail : List (Lexeme α)} (h : Fails before inside after)
    (hbefore : ∀ t ∈ before, t.token ≠ .finish) (hline : ∀ t ∈ inside, t.line = n)
    (htail : Stops lastLine n tail) (cs : List (Command α)) :
    ¬IsProgram (before ++ (inside ++ tail)) cs := by
  intro hprogram
  have hall := commands_of_isProgram lastLine hprogram
  obtain ⟨more, hmore⟩ : ∃ more, commands lastLine (inside ++ tail) = .ok more := by
    rcases h.script_before with rfl | ⟨front, k, ds, rfl, hfront⟩
    · exact ⟨cs, hall⟩
    · have hscript := commands_of_isProgram lastLine hfront
      rw [List.append_assoc, List.singleton_append, commands_below
        (fun t ht => hbefore t (List.mem_append_left _ ht)) hscript] at hall
      obtain ⟨more, hmore, -⟩ := map_eq_ok_iff.1 hall
      exact ⟨more, hmore⟩
  -- the failing lexemes come first, so the first statement is read from them
  obtain ⟨⟨token, m⟩, ts, rfl⟩ := List.exists_cons_of_ne_nil h.ne_nil
  have htoken : token.endsStatement = false := h.inside _ List.mem_cons_self
  have hskip : skipSeparators (⟨token, m⟩ :: ts ++ tail) = ⟨token, m⟩ :: ts ++ tail := by
    cases token <;> first | rfl | cases htoken
  have hfinish : (current (skipSeparators (⟨token, m⟩ :: ts ++ tail))).isFinish = false := by
    rw [hskip]
    cases token <;> first | rfl | cases htoken
  obtain ⟨c, mid, -, hreads, hends, -, -⟩ := (commands_eq_ok_iff hfinish).1 hmore
  rw [hskip] at hreads
  -- it reaches up to where it has to stop, so it is all of them
  have hremains : Remains n tail (⟨token, m⟩ :: ts ++ tail) :=
    .of_append fun t ht => ⟨hline t ht, h.inside t ht⟩
  have hmid := (remains_or_reported htail hremains).1 c mid hreads
  obtain rfl := hmid.eq_of_endsStatement hends
  obtain ⟨used, hused, hc⟩ := isStatement_of_reads hreads
  obtain rfl := List.append_cancel_right hused
  exact h.not_isStatement c hc

/-- No separator behind the failing lexemes stops a script. -/
theorem Fails.not_isProgram_of_separator {before middle behind : List (Lexeme α)} {k : Nat}
    (h : Fails before inside after) (hbefore : ∀ t ∈ before, t.token ≠ .finish)
    (hline : ∀ t ∈ inside, t.line = n) (hafter : Stops lastLine n after)
    (heq : inside ++ after = middle ++ ⟨.separator, k⟩ :: behind) (cs : List (Command α)) :
    ¬IsProgram (before ++ (middle ++ [⟨.finish, k⟩])) cs := by
  -- the separator is not one of the failing lexemes, so these come before it
  obtain ⟨rest, rfl, rfl⟩ : ∃ rest, middle = inside ++ rest ∧
      after = rest ++ ⟨.separator, k⟩ :: behind := by
    rcases List.append_eq_append_iff.1 heq with hrest | ⟨rest, rfl, hrest⟩
    · exact hrest
    · cases rest with
      | nil => exact ⟨[], by simp, hrest.symm⟩
      | cons t rest =>
        obtain ⟨rfl, -⟩ := List.cons.inj hrest
        cases h.inside _ (List.mem_append_right _ List.mem_cons_self)
  rw [List.append_assoc]
  cases rest with
  | nil =>
    cases hafter
    exact h.not_isProgram hbefore hline (show Stops n n _ from .finish rfl) cs
  | cons t rest =>
    rw [List.cons_append] at hafter ⊢
    generalize htail : rest ++ ⟨.separator, k⟩ :: behind = tail at hafter
    cases hafter with
    | separator _ =>
      exact h.not_isProgram hbefore hline (show Stops lastLine n _ from .separator _) cs
    | finish _ => simp at htail

omit [Numeral α] in
/-- The failing lexemes are on one line, and so is what stops them. -/
theorem Fails.stops_on_line {before : List (Lexeme α)} (h : Fails before inside after)
    (hts : WellNumbered lastLine (before ++ inside ++ after)) :
    ∃ n, (∀ t ∈ inside, t.line = n) ∧ Stops lastLine n after := by
  rw [List.append_assoc] at hts
  have hends := hts.endsOnce.of_append_of_ne_nil (List.append_ne_nil_of_left_ne_nil h.ne_nil after)
  obtain ⟨stop, hstop, hremains⟩ := (hts.of_append hends.2).exists_remains
  obtain ⟨front, heq, hfront⟩ := hremains.exists_append
  -- both find the first separator or end
  have hafter := dropWhile_inside h.inside h.stops
  rw [heq, dropWhile_inside (fun t ht => (hfront t ht).2) hstop.endsStatement] at hafter
  subst hafter
  obtain rfl := List.append_cancel_right heq
  exact ⟨_, fun t ht => (hfront t ht).1, hstop⟩

/-- **There is one choice of the first lexemes that are no statement.** -/
theorem Fails.unique {before inside' before' after' : List (Lexeme α)}
    (hts : WellNumbered lastLine (before ++ inside ++ after))
    (heq : before ++ inside ++ after = before' ++ inside' ++ after')
    (h : Fails before inside after) (h' : Fails before' inside' after') :
    before = before' ∧ inside = inside' ∧ after = after' := by
  wlog hle : before.length ≤ before'.length generalizing before before' inside inside' after after'
  · obtain ⟨rfl, rfl, rfl⟩ := this (heq ▸ hts) heq.symm h' h (Nat.le_of_not_le hle)
    exact ⟨rfl, rfl, rfl⟩
  obtain ⟨n, hline, hafter⟩ := h.stops_on_line hts
  simp only [List.append_assoc] at heq hts
  obtain ⟨hbefore, -⟩ := hts.endsOnce.of_append_of_ne_nil
    (List.append_ne_nil_of_left_ne_nil h.ne_nil after)
  obtain ⟨more, rfl⟩ := List.prefix_of_prefix_length_le (List.prefix_append before _)
    (heq ▸ List.prefix_append before' _) hle
  rw [List.append_assoc, List.append_cancel_left_eq] at heq
  rcases List.eq_nil_or_concat more with rfl | ⟨middle, last, rfl⟩
  · have hsame := dropWhile_inside h.inside h.stops
    rw [heq, List.nil_append, dropWhile_inside h'.inside h'.stops] at hsame
    subst hsame
    obtain rfl := List.append_cancel_right heq
    exact ⟨(List.append_nil before).symm, rfl, rfl⟩
  · -- a script reaches up to the second choice, so there is no first one
    exfalso
    rw [List.concat_eq_append, List.append_assoc, List.singleton_append] at heq
    rcases h'.script_before with hnil | ⟨front, k, cs, hfront, hprogram⟩
    · simp at hnil
    rw [List.concat_eq_append, ← List.append_assoc] at hfront
    obtain ⟨rfl, hlast⟩ := List.append_inj' hfront rfl
    cases hlast
    rw [List.append_assoc] at hprogram
    exact h.not_isProgram_of_separator hbefore hline hafter heq cs hprogram

/-! ## Sources -/

/-- **Errors are reported on the line of the statement that is none, but for one case.** Where a
source is made of lexemes that are no script, there are first lexemes that are no statement. They
are all on one line, and the error is reported on that line, unless a number is missing at the
separator behind them. Then it is reported on the line of what comes behind the separator, which is
the next line if the separator is a line break. -/
theorem parse_error_line {source : String} {lexemes : List (Lexeme α)} {e : ParseError}
    (htokens : tokenize source = .ok lexemes) (h : parse (α := α) source = .error e) :
    (∃ before first more after, lexemes = before ++ first :: more ++ after ∧
      Fails before (first :: more) after) ∧
    ∀ before first more after, lexemes = before ++ first :: more ++ after →
      Fails before (first :: more) after →
        (∀ t ∈ more, t.line = first.line) ∧ (e.cause ≠ noNumber → e.line = first.line) ∧
        (e.cause = noNumber → ∃ next below, after = ⟨.separator, first.line⟩ :: next :: below ∧
          e.line = next.line ∧ (next.line = first.line ∨ next.line = first.line + 1)) := by
  have hlexemes := wellNumbered_of_tokenize htokens
  rw [parse, htokens] at h
  obtain ⟨n, before, failing, after, rfl, hfails, hline, hafter, he⟩ :=
    failsWith_of_error hlexemes h
  obtain ⟨first, more, rfl⟩ := List.exists_cons_of_ne_nil hfails.ne_nil
  obtain ⟨rfl, hmore⟩ := List.forall_mem_cons.1 hline
  refine ⟨⟨before, first, more, after, rfl, hfails⟩, fun before' first' more' after' heq h' => ?_⟩
  obtain ⟨rfl, hsame, rfl⟩ := hfails.unique hlexemes heq h'
  obtain ⟨rfl, rfl⟩ := List.cons.inj hsame
  refine ⟨hmore, fun hcause => ?_, fun hcause => ?_⟩
  · cases he with
    | here _ => rfl
    | behind _ => exact absurd rfl hcause
  · cases he with
    | here hne => exact absurd hcause hne
    | behind hbehind =>
      rename_i below
      subst hbehind
      obtain ⟨hnext, -⟩ := List.isChain_cons.1 hlexemes.isChain.right_of_append
      cases below with
      | nil =>
        -- a separator is not the last lexeme
        obtain ⟨_, _, hlast, -⟩ := hlexemes.endsOnce
        obtain ⟨-, heq⟩ := List.append_inj' hlast rfl
        cases heq
      | cons next below => exact ⟨next, below, rfl, rfl, (hnext next rfl).imp_right And.right⟩

/-- Below a call, a word alone is no statement: the error is reported on line two. -/
theorem parse_error_line_of_word :
    let source := "A()\nB"
    let e : ParseError := ⟨2, .unexpectedToken "`(`" "end of input"⟩
    parse (α := Float) source = .error e ∧ ∃ lexemes : List (Lexeme Float),
      tokenize source = .ok lexemes ∧ ∃ before first more after,
        lexemes = before ++ first :: more ++ after ∧ Fails before (first :: more) after ∧
          e.line = first.line := by
  intro source e
  let call : List (Lexeme Float) := [wordAt "A" 1, mark .leftParen 1, mark .rightParen 1]
  let word : List (Lexeme Float) := [wordAt "B" 2, ⟨.finish, 2⟩]
  have htokens : tokenize source = .ok (call ++ ⟨.separator, 1⟩ :: word) := by
    have hword : piece (α := Float) 'A' ['(', ')', '\n', 'B'] =
        .ok (.token (.word "A"), ['(', ')', '\n', 'B']) := by rfl
    have hopening : piece (α := Float) '(' [')', '\n', 'B'] =
        .ok (.token (.symbol .leftParen), [')', '\n', 'B']) := by rfl
    have hclosing : piece (α := Float) ')' ['\n', 'B'] =
        .ok (.token (.symbol .rightParen), ['\n', 'B']) := by rfl
    have hbreak : piece (α := Float) '\n' ['B'] = .ok (.lineBreak, ['B']) := by rfl
    have hlast : piece (α := Float) 'B' [] = .ok (.token (.word "B"), []) := by rfl
    rw [tokenize, show source.toList = ['A', '(', ')', '\n', 'B'] by decide,
      tokensFrom_cons_of_ok hword, tokensFrom_cons_of_ok hopening, tokensFrom_cons_of_ok hclosing,
      tokensFrom_cons_of_ok hbreak, tokensFrom_cons_of_ok hlast, tokensFrom]
    rfl
  have hstatement : IsStatement ([] ++ call) ⟨1, none, "A", [], []⟩ :=
    .call .none (show Commas IsParameter [] (joined [] []) from .nil) rfl
  have hword : commands 2 ((⟨.separator, 1⟩ : Lexeme Float) :: word) = .error e :=
    commands_of_error rfl rfl
  have hparse : parse (α := Float) source = .error e := by
    have hcommands : commands 2 ([] ++ ([] ++ call) ++ ⟨.separator, 1⟩ :: word) =
        (commands 2 (⟨.separator, 1⟩ :: word)).map ([⟨1, none, "A", [], []⟩] ++ ·) :=
      commands_append (List.forall_mem_nil _) (.one hstatement) rfl
    rw [hword] at hcommands
    rw [parse, htokens]
    exact hcommands
  obtain ⟨⟨before, first, more, after, hlexemes, hfails⟩, hall⟩ := parse_error_line htokens hparse
  obtain ⟨-, hline, -⟩ := hall before first more after hlexemes hfails
  exact ⟨hparse, _, htokens, before, first, more, after, hlexemes, hfails, hline (by decide)⟩

/-- A call that is broken off behind its opening parenthesis lacks a number, which is reported on
the line of what comes behind the separator. -/
theorem statement_of_break (lastLine n : Nat) (verb : String) (below : List (Lexeme α)) :
    statement lastLine (wordAt verb n :: mark .leftParen n :: ⟨.separator, n⟩ :: below) =
      .error ⟨lineOf lastLine below, noNumber⟩ := by
  have hatom : atom lastLine (⟨.separator, n⟩ :: below) =
      .error ⟨lineOf lastLine below, noNumber⟩ := by
    simp only [atom]
    rfl
  have hexpression : expression lastLine 0 (⟨.separator, n⟩ :: below) =
      .error ⟨lineOf lastLine below, noNumber⟩ := by
    rw [expression, hatom]
    rfl
  have hvalue : value lastLine (⟨.separator, n⟩ :: below) =
      .error ⟨lineOf lastLine below, noNumber⟩ := by
    simp only [value]
    rw [hexpression]
    rfl
  have hparameters : parameters lastLine false (⟨.separator, n⟩ :: below) =
      .error ⟨lineOf lastLine below, noNumber⟩ := by
    simp only [parameters, parameter]
    rw [hvalue]
    rfl
  show (parameters lastLine false (⟨.separator, n⟩ :: below) >>= _) = _
  rw [hparameters]
  rfl

/-- **Not every error is on the line of its statement**: behind an opening parenthesis at the end of
a line a number is missing, which is reported on the next line. -/
theorem not_parse_error_line_of_break :
    ¬∀ (source : String) (lexemes : List (Lexeme Float)) (e : ParseError),
      tokenize source = .ok lexemes → parse (α := Float) source = .error e →
        ∀ before first more after, lexemes = before ++ first :: more ++ after →
          Fails before (first :: more) after → e.line = first.line := by
  intro hall
  let inside : List (Lexeme Float) := [wordAt "A" 1, mark .leftParen 1]
  let after : List (Lexeme Float) := [⟨.separator, 1⟩, ⟨.finish, 2⟩]
  have htokens : tokenize "A(\n" = .ok (inside ++ after) := by
    have hword : piece (α := Float) 'A' ['(', '\n'] =
        .ok (.token (.word "A"), ['(', '\n']) := by rfl
    have hopening : piece (α := Float) '(' ['\n'] =
        .ok (.token (.symbol .leftParen), ['\n']) := by rfl
    have hbreak : piece (α := Float) '\n' [] = .ok (.lineBreak, []) := by rfl
    rw [tokenize, show "A(\n".toList = ['A', '(', '\n'] by decide, tokensFrom_cons_of_ok hword,
      tokensFrom_cons_of_ok hopening, tokensFrom_cons_of_ok hbreak, tokensFrom]
    rfl
  have hstatement := statement_of_break 2 1 "A" [(⟨.finish, 2⟩ : Lexeme Float)]
  have hparse : parse (α := Float) "A(\n" = .error ⟨2, noNumber⟩ := by
    rw [parse, htokens]
    exact commands_of_error rfl hstatement
  have hfails : Fails [] inside after :=
    { script_before := .inl rfl
      ne_nil := List.cons_ne_nil _ _
      inside := List.forall_mem_cons.2 ⟨rfl, List.forall_mem_singleton.2 rfl⟩
      stops := rfl
      not_isStatement := not_isStatement_of_error hstatement }
  cases hall _ _ _ htokens hparse [] _ _ after rfl hfails

end Straightedge.Script
