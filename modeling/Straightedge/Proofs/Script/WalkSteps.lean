import Straightedge.Proofs.Script.Readers
import Straightedge.Proofs.Script.Walks

/-! # Walks that follow readers

A walk over positions follows a reader of lists if both come to the same answer, or to the same
error, and if the walk reaches none of its limits. What a walk costs is kept as one number: the
rounds begun so far, and two for each token ahead. A token that is taken pays for two rounds, so
that this number bounds the rounds of a whole walk.

* **`Walk.Stands`**: a cursor before given lexemes, with a bound on its rounds and tokens ahead.
* **`Walk.Follows`**: a walk beside the answer of a reader; **`Walk.Lands`** says where it ends.
* **`Follows.bind`**, **`Follows.map`**: walks one after another.
* **`Follows.peek`**, **`Follows.take`**, **`Follows.round`**, **`Follows.expect`**: single steps.
* **`Walk.follows_enclosed`**: the loop over items between commas. -/

namespace Straightedge.Script.Walk

variable {α β γ δ σ : Type} {bound : Nat}

/-- What a reader of a symbol answers where another token stands. -/
theorem expect_of_ne [Numeral α] {lastLine : Nat} {s : Symbol} {ts : List (Lexeme α)}
    (h : ¬(current ts).isSymbol s = true) :
    Script.expect lastLine s ts =
      .error (unexpected lastLine (Token.describe (α := α) (.symbol s)) ts) := by
  rw [Script.expect.eq_def]
  split
  · exact if_neg fun hs => h (decide_eq_true hs)
  · rfl

/-- A token other than the end of the script stands at the front if it is the current one. -/
theorem exists_eq_cons_of_current {token : Token α} {ts : List (Lexeme α)}
    (h : current ts = token) (htoken : token ≠ .finish) : ∃ n vs, ts = ⟨token, n⟩ :: vs := by
  subst h
  cases ts with
  | nil => exact absurd rfl htoken
  | cons t vs => exact ⟨t.line, vs, rfl⟩

/-! ## Following -/

/-- The cursor stands before the lexemes `ts`, and the rounds so far and twice the tokens ahead are
together at most `total`. -/
structure Stands (tokens : List (Lexeme α)) (total : Nat) (ts : List (Lexeme α)) (c : Cursor) :
    Prop where
  position_le : c.position ≤ tokens.length
  drop_eq : tokens.drop c.position = ts
  rounds_add_le : c.rounds + 2 * ts.length ≤ total

/-- **The outcome of a walk beside the answer of a reader**: values as `post` wants them, or the
error of the reader, at a position of the script and after at most `most` rounds. -/
inductive Outcome (tokens : List (Lexeme α)) (most : Nat) (post : γ → β → Cursor → Prop) :
    Except ParseError γ → Except Halt β × Cursor → Prop
  | ok {x : γ} {y : β} {c : Cursor} (h : post x y c) : Outcome tokens most post (.ok x) (.ok y, c)
  | error {e : ParseError} {c : Cursor} (hposition : c.position ≤ tokens.length)
      (hrounds : c.rounds ≤ most) : Outcome tokens most post (.error e) (.error (.error e), c)

/-- From every cursor before `ts` the walk has an outcome beside the answer. -/
def Follows (tokens : List (Lexeme α)) (most total : Nat) (ts : List (Lexeme α)) (w : Walk β)
    (post : γ → β → Cursor → Prop) (answer : Except ParseError γ) : Prop :=
  ∀ c, Stands tokens total ts c → Outcome tokens most post answer (exec w c)

/-- A reader's value under `g`, with the cursor before the lexemes that the reader leaves. -/
def Lands (tokens : List (Lexeme α)) (total : Nat) (g : γ → β) (r : Rest α γ bound) (y : β)
    (c : Cursor) : Prop :=
  y = g r.value ∧ Stands tokens total r.lexemes c

variable {tokens ts : List (Lexeme α)} {most total total₁ total₂ : Nat} {t : Lexeme α} {c : Cursor}

namespace Stands

theorem mono (h : Stands tokens total₁ ts c) (hle : total₁ ≤ total₂) : Stands tokens total₂ ts c :=
  ⟨h.position_le, h.drop_eq, Nat.le_trans h.rounds_add_le hle⟩

/-- The lexemes ahead of a cursor reach to the end of the script. -/
theorem position_add (h : Stands tokens total ts c) : c.position + ts.length = tokens.length := by
  have hle := h.position_le
  rw [← h.drop_eq, List.length_drop]
  omega

theorem two_le (h : Stands tokens total (t :: ts) c) : 2 ≤ total := by
  have hle := h.rounds_add_le
  rw [List.length_cons] at hle
  omega

/-- One position on, there is one token less ahead. -/
theorem next (h : Stands tokens total (t :: ts) c) :
    Stands tokens (total - 2) ts { c with position := c.position + 1 } where
  position_le := by
    have hposition := h.position_add
    rw [List.length_cons] at hposition
    show c.position + 1 ≤ tokens.length
    omega
  drop_eq := by
    show tokens.drop (c.position + 1) = ts
    rw [← List.drop_drop, h.drop_eq]
    rfl
  rounds_add_le := by
    have hrounds := h.rounds_add_le
    rw [List.length_cons] at hrounds
    show c.rounds + 2 * ts.length ≤ total - 2
    omega

end Stands

namespace Follows

variable {w : Walk β} {post : γ → β → Cursor → Prop} {answer : Except ParseError γ}

/-- What holds with more rounds and tokens holds with fewer. -/
theorem anti (h : Follows tokens most total₂ ts w post answer) (hle : total₁ ≤ total₂) :
    Follows tokens most total₁ ts w post answer :=
  fun c hc => h c (hc.mono hle)

/-- The lexemes ahead are counted in the bound. -/
theorem of_length_le (h : 2 * ts.length ≤ total → Follows tokens most total ts w post answer) :
    Follows tokens most total ts w post answer :=
  fun c hc => h (Nat.le_trans (Nat.le_add_left _ _) hc.rounds_add_le) c hc

/-- A walk that gives its value where it stands. -/
theorem here {x : γ} {y : β} (h : ∀ c, Stands tokens total ts c → post x y c) :
    Follows tokens most total ts (pure y) post (.ok x) :=
  fun c hc => .ok (h c hc)

/-- The end of a walk, with its value and what is left. -/
theorem lands {x : γ} {y : β} {g : γ → β} {h : ts.length < bound} (hy : y = g x)
    (hle : total ≤ total₁) :
    Follows tokens most total ts (pure y) (Lands tokens total₁ g) (.ok ⟨x, ts, h⟩) :=
  here fun _ hc => ⟨hy, hc.mono hle⟩

/-- **Walks one after another** follow readers one after another. -/
theorem bind {first : Except ParseError (Rest α δ bound)} {g : δ → σ} {w : Walk σ}
    {next : σ → Walk β} {next' : Rest α δ bound → Except ParseError γ}
    (hfirst : Follows tokens most total ts w (Lands tokens total₁ g) first)
    (hnext : ∀ x rest h, Follows tokens most total₁ rest (next (g x)) post (next' ⟨x, rest, h⟩)) :
    Follows tokens most total ts (w >>= next) post (first >>= next') := by
  intro c hc
  rw [exec_bind]
  match first, exec w c, hfirst c hc with
  | _, _, .ok ⟨hvalue, hstands⟩ =>
    subst hvalue
    exact hnext _ _ _ _ hstands
  | _, _, .error hposition hrounds => exact .error hposition hrounds

/-- The first part of a walk may have parts itself. -/
theorem assoc {w : Walk δ} {f : δ → Walk σ} {next : σ → Walk β}
    (h : Follows tokens most total ts (do let x ← w; let y ← f x; next y) post answer) :
    Follows tokens most total ts (do let y ← (do let x ← w; f x); next y) post answer := by
  rw [bind_assoc]
  exact h

/-- A last step of the reader. -/
theorem mapAnswer {post' : δ → β → Cursor → Prop} {f : γ → δ}
    (h : Follows tokens most total ts w post answer)
    (hpost : ∀ x y c, post x y c → post' (f x) y c) :
    Follows tokens most total ts w post' (do let x ← answer; return f x) := by
  intro c hc
  match answer, exec w c, h c hc with
  | _, _, .ok hx => exact .ok (hpost _ _ _ hx)
  | _, _, .error hposition hrounds => exact .error hposition hrounds

/-- A last step of the reader that makes another value of its own. -/
theorem map {bound₁ : Nat} {first : Except ParseError (Rest α δ bound₁)} {g₁ : δ → β} {g : γ → β}
    {f : δ → γ} {p : ∀ r : Rest α δ bound₁, r.lexemes.length < bound}
    (h : Follows tokens most total ts w (Lands tokens total₁ g₁) first) (hg : ∀ x, g₁ x = g (f x))
    (hle : total₁ ≤ total₂) :
    Follows tokens most total ts w (Lands tokens total₂ g)
      (do let r ← first; return ⟨f r.value, r.lexemes, p r⟩) :=
  h.mapAnswer fun r _ _ hr => ⟨hr.1.trans (hg r.value), hr.2.mono hle⟩

/-- A last step of the walk that makes another value of its own. -/
theorem mapWalk {first : Except ParseError (Rest α γ bound)} {g : γ → σ} {f : σ → β} {w : Walk σ}
    (h : Follows tokens most total ts w (Lands tokens total₁ g) first) (hle : total₁ ≤ total₂) :
    Follows tokens most total ts (do let y ← w; return f y) (Lands tokens total₂ fun x => f (g x))
      first := by
  rw [← bind_pure first]
  exact h.bind fun x _ _ => lands rfl hle

end Follows

/-! ## Single steps -/

/-- The walk takes the token that it stands before, and does nothing else. -/
def Takes (tokens : List (Lexeme α)) (t : Lexeme α) (x : β) (w : Walk β) : Prop :=
  ∀ total ts c, Stands tokens total (t :: ts) c →
    exec w c = (.ok x, { c with position := c.position + 1 })

/-- Looking at a token. -/
theorem exec_peekAt (h : Stands tokens total ts c) (offset : Nat) :
    exec (peekAt tokens offset) c = (.ok (current (ts.drop offset)), c) := by
  rw [← h.drop_eq, List.drop_drop]
  rfl

theorem exec_advance (h : Stands tokens total ts c) :
    exec (advance tokens) c = (.ok (current ts), if c.position < tokens.length then
      { c with position := c.position + 1 } else c) := by
  rw [← h.drop_eq]
  rfl

theorem takes_advance : Takes tokens t t.token (advance tokens) := by
  intro total ts c hc
  have hposition := hc.position_add
  rw [List.length_cons] at hposition
  rw [exec_advance hc, if_pos (by omega), current_cons]

theorem takes_discard : Takes tokens t () (discard (advance tokens)) := by
  intro total ts c hc
  simp only [discard, map_const, Function.comp_apply, map_eq_pure_bind, exec_bind,
    takes_advance total ts c hc, exec_pure]

theorem takes_expect [Numeral α] {s : Symbol} {n : Nat} :
    Takes tokens (mark s n) () (expect tokens s) := by
  intro total ts c hc
  have hmark : (mark s n : Lexeme α).token.isSymbol s = true := decide_eq_true rfl
  rw [expect, exec_bind, exec_peekAt hc]
  simp only [List.drop_zero, current_cons, hmark, if_true]
  exact takes_discard total ts c hc

theorem takes_ident [Numeral α] {text : String} {n : Nat} :
    Takes tokens (wordAt text n) text (ident tokens) := by
  intro total ts c hc
  rw [ident, exec_bind, exec_peekAt hc]
  simp only [List.drop_zero, current_cons, exec_bind, takes_discard total ts c hc, exec_pure]

namespace Follows

variable {post : γ → β → Cursor → Prop} {answer : Except ParseError γ}

/-- Looking at a token. -/
theorem peek {next : Token α → Walk β} (offset : Nat)
    (h : Follows tokens most total ts (next (current (ts.drop offset))) post answer) :
    Follows tokens most total ts (peekAt tokens offset >>= next) post answer := by
  intro c hc
  rw [exec_bind, exec_peekAt hc]
  exact h c hc

/-- Looking at the line. -/
theorem line {next : Nat → Walk β}
    (h : Follows tokens most total ts (next (lineOf (lastLineOf tokens) ts)) post answer) :
    Follows tokens most total ts (Walk.line tokens >>= next) post answer := by
  intro c hc
  have hexec : exec (Walk.line tokens) c = (.ok (lineOf (lastLineOf tokens) ts), c) := by
    rw [← hc.drop_eq]
    rfl
  rw [exec_bind, hexec]
  exact h c hc

/-- A token is taken; it pays for two rounds. -/
theorem take {w : Walk σ} {x : σ} {next : σ → Walk β} (hw : Takes tokens t x w)
    (h : 2 ≤ total → Follows tokens most (total - 2) ts (next x) post answer) :
    Follows tokens most total (t :: ts) (w >>= next) post answer := by
  intro c hc
  rw [exec_bind, hw total ts c hc]
  exact h hc.two_le _ hc.next

/-- Past the last token a walk takes the end of the script, and stays. -/
theorem advance_nil {next : Token α → Walk β}
    (h : Follows tokens most total [] (next .finish) post answer) :
    Follows tokens most total [] (advance tokens >>= next) post answer := by
  intro c hc
  have hposition := hc.position_add
  rw [List.length_nil] at hposition
  rw [exec_bind, exec_advance hc, if_neg (by omega), current_nil]
  exact h c hc

/-- A round of a loop is begun. -/
theorem round {next : Unit → Walk β}
    (h : Follows tokens most (total + 1) ts (next ()) post answer) :
    Follows tokens most total ts (Walk.round >>= next) post answer := by
  intro c hc
  have hrounds := hc.rounds_add_le
  rw [exec_bind]
  refine h { c with rounds := c.rounds + 1 } ⟨hc.position_le, hc.drop_eq, ?_⟩
  show c.rounds + 1 + 2 * ts.length ≤ total + 1
  omega

theorem reject {cause : Malformation} (hle : total ≤ most) :
    Follows tokens most total ts (Walk.reject tokens cause : Walk β) post
      (.error ⟨lineOf (lastLineOf tokens) ts, cause⟩) := by
  intro c hc
  have hrounds := hc.rounds_add_le
  rw [← hc.drop_eq]
  exact .error hc.position_le (by omega)

variable [Numeral α]

theorem mismatch {wanted : String} (hle : total ≤ most) :
    Follows tokens most total ts (Walk.mismatch tokens wanted : Walk β) post
      (.error (unexpected (lastLineOf tokens) wanted ts)) :=
  peek 0 (reject hle)

theorem expect (s : Symbol) (hle : total ≤ most) :
    Follows tokens most total ts (Walk.expect tokens s) (Lands tokens (total - 2) id)
      (Script.expect (lastLineOf tokens) s ts) := by
  rw [← bind_pure (Walk.expect tokens s)]
  by_cases hs : (current ts).isSymbol s = true
  · obtain ⟨n, vs, rfl⟩ := isSymbol_current_iff.1 hs
    -- the reader compares the symbols, the walk asks the token
    have hreader : Script.expect (lastLineOf tokens) s (mark s n :: vs) =
        .ok (.single () (mark s n) vs) := if_pos rfl
    rw [hreader]
    exact take takes_expect fun _ => lands rfl (Nat.le_refl _)
  · rw [expect_of_ne hs, bind_pure, Walk.expect]
    refine peek 0 ?_
    rw [List.drop_zero, if_neg hs]
    exact mismatch hle

/-- A word is taken. -/
theorem ident (hle : total ≤ most) :
    Follows tokens most total ts (Walk.ident tokens) (Lands tokens (total - 2) id)
      (verbWord (lastLineOf tokens) ts) := by
  refine peek 0 ?_
  rcases ts with _ | ⟨⟨token, n⟩, vs⟩
  · exact mismatch hle
  cases token with
  | word text => exact take takes_discard fun _ => lands rfl (Nat.le_refl _)
  | _ => exact mismatch hle

end Follows

/-! ## Loops -/

theorem loop_succ (step : σ → Walk (σ ⊕ β)) (limit : Nat) (s : σ) :
    loop step (limit + 1) s = step s >>= Sum.elim (loop step limit) pure := by
  rw [loop]
  congr 1
  funext r
  cases r <;> rfl

theorem ite_bind (p : Prop) [Decidable p] (x y : Walk σ) (next : σ → Walk β) :
    (if p then x else y) >>= next = if p then x >>= next else y >>= next := by
  split <;> rfl

variable [Numeral α]

theorem mismatch_bind (wanted : String) (next : σ → Walk β) :
    mismatch tokens wanted >>= next = mismatch tokens wanted := by
  simp only [mismatch, reject, bind_assoc]
  rfl

/-- The loop over items, one round at a time. -/
theorem items_succ (close : Symbol) (wanted : String) (item : σ → Walk σ) (limit : Nat) (s : σ) :
    items tokens close wanted item (limit + 1) s = (do
      if (← peekAt tokens 0).isSymbol close then return s
      else
        round
        let s ← item s
        if (← peekAt tokens 0).isSymbol .comma then
          discard (advance tokens)
          items tokens close wanted item limit s
        else if (← peekAt tokens 0).isSymbol close then items tokens close wanted item limit s
        else mismatch tokens wanted) := by
  simp only [items, loop_succ, bind_assoc, ite_bind, pure_bind, Sum.elim_inl, Sum.elim_inr,
    mismatch_bind]

/-- **The loop over items follows a reader of items** if its body follows the reader of one item.
The items before are in the state, to which `glue` adds what the reader answers. -/
theorem follows_enclosed {close : Symbol} {wanted : String} {push : σ → δ → σ} {nil : γ}
    {cons : δ → γ → γ} {first : σ → ∀ ts : List (Lexeme α), Reading α δ ts}
    {reader : σ → ∀ ts : List (Lexeme α), Reading α γ ts} {item : σ → Walk σ} {finish : Walk Unit}
    {glue : σ → γ → σ} {n : Nat}
    (hreader : ReadsItems (lastLineOf tokens) close wanted push nil cons first reader)
    (hnil : ∀ s, s = glue s nil) (hcons : ∀ s x xs, glue (push s x) xs = glue s (cons x xs))
    (hfinish : ∀ n, Takes tokens (mark close n) () finish)
    (hitem : ∀ s total ts, ts.length < n → total ≤ most →
      Follows tokens most total ts (item s) (Lands tokens (total - 1) (push s)) (first s ts)) :
    ∀ (limit total : Nat) (s : σ) (ts : List (Lexeme α)), ts.length < limit → ts.length < n →
      total < most → Follows tokens most total ts (enclosed tokens close wanted item finish limit s)
        (Lands tokens (total - 1) (glue s)) (reader s ts)
  | 0, _, _, _, hlimit, _, _ => absurd hlimit (Nat.not_lt_zero _)
  | limit + 1, total, s, ts, hlimit, hts, hmost => by
    -- by induction on the limit: each round takes an item, so that fewer tokens are ahead
    rw [enclosed, items_succ]
    refine .assoc (.peek 0 ?_)
    rw [List.drop_zero]
    by_cases hclose : (current ts).isSymbol close = true
    · obtain ⟨m, vs, rfl⟩ := isSymbol_current_iff.1 hclose
      rw [if_pos hclose, pure_bind, hreader.closed]
      exact .take (hfinish m) fun _ => .lands (hnil s) (by omega)
    obtain ⟨next, hnext, hmore, hlast, hother⟩ := hreader.item s ts fun m vs heq =>
      hclose (isSymbol_current_iff.2 ⟨m, vs, heq⟩)
    rw [if_neg hclose, hnext]
    refine .assoc (.round (.assoc ?_))
    refine (hitem s (total + 1) ts hts hmost).bind fun x mid hmid => .assoc (.peek 0 ?_)
    rw [List.drop_zero]
    by_cases hcomma : (current mid).isSymbol .comma = true
    · obtain ⟨m, vs, rfl⟩ := isSymbol_current_iff.1 hcomma
      obtain ⟨p, heq⟩ := hmore x m vs hmid
      rw [List.length_cons] at hmid
      -- the item gives back what its round has cost
      rw [if_pos hcomma, heq]
      refine .assoc (.take takes_discard fun _ => ?_)
      exact (follows_enclosed hreader hnil hcons hfinish hitem limit (total + 1 - 1 - 2) (push s x)
        vs (by omega) (by omega) (by omega)).map (hcons s x) (by omega)
    rw [if_neg hcomma]
    refine .assoc (.peek 0 ?_)
    rw [List.drop_zero]
    by_cases hclose' : (current mid).isSymbol close = true
    · -- the next round ends the loop before it begins
      obtain ⟨m, vs, rfl⟩ := isSymbol_current_iff.1 hclose'
      obtain ⟨p, heq⟩ := hlast x m vs hmid
      have hless : (mark close m :: vs).length < limit := by omega
      obtain ⟨limit, rfl⟩ : ∃ k, limit = k + 1 := ⟨limit - 1, by omega⟩
      rw [if_pos hclose', heq, items_succ]
      refine .assoc (.peek 0 ?_)
      rw [List.drop_zero, if_pos hclose', pure_bind]
      refine .take (hfinish m) fun _ => .lands ?_ (by omega)
      exact (hnil (push s x)).trans (hcons s x nil)
    rw [if_neg hclose', mismatch_bind, hother x mid hmid]
    · exact .mismatch (by omega)
    · exact fun m vs heq => hcomma (isSymbol_current_iff.2 ⟨m, vs, heq⟩)
    · exact fun m vs heq => hclose' (isSymbol_current_iff.2 ⟨m, vs, heq⟩)

end Straightedge.Script.Walk
