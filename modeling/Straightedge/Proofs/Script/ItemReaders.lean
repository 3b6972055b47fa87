import Straightedge.Proofs.Script.Answers
import Straightedge.Script.Parser

/-! # Readers of items

Arguments of functions, items of lists and arguments of statements are read by one pattern: items
with commas between them, up to a closing symbol. What the three readers have in common is said
once, so that a fact about all of them needs one proof.

* **`ReadsItems`**: the pattern; **`ReadsItems.comap`** changes what is carried from item to item.
* **`ReadsItems.reads_iff`**: what such a reader answers.
* **`readsItems_arguments`**, **`readsItems_listItems`**, **`readsItems_parameters`**: the three
  readers. -/

namespace Straightedge.Script

variable {α γ δ σ τ : Type} [Numeral α]

/-- **A reader of items up to a closing symbol.** The items before decide how an item is read, and
`push` puts one more behind them. Behind an item the reader goes on after a comma, ends after the
closing symbol, and fails before anything else. -/
structure ReadsItems (lastLine : Nat) (close : Symbol) (wanted : String) (push : σ → δ → σ)
    (nil : γ) (cons : δ → γ → γ) (first : σ → ∀ ts : List (Lexeme α), Reading α δ ts)
    (reader : σ → ∀ ts : List (Lexeme α), Reading α γ ts) : Prop where
  closed : ∀ s n ts, reader s (mark close n :: ts) = .ok (.single nil (mark close n) ts)
  item : ∀ s ts, (∀ n vs, ts ≠ mark close n :: vs) → ∃ next, reader s ts = first s ts >>= next ∧
    (∀ x n vs h, ∃ p : ∀ r : Rest α γ vs.length, r.lexemes.length < ts.length,
      next ⟨x, mark .comma n :: vs, h⟩ =
        (do let more ← reader (push s x) vs; return ⟨cons x more.value, more.lexemes, p more⟩)) ∧
    (∀ x n vs h, ∃ p, next ⟨x, mark close n :: vs, h⟩ = .ok ⟨cons x nil, vs, p⟩) ∧
    ∀ x mid h, (∀ n vs, mid ≠ mark .comma n :: vs) → (∀ n vs, mid ≠ mark close n :: vs) →
      next ⟨x, mid, h⟩ = .error (unexpected lastLine wanted mid)

namespace ReadsItems

variable {lastLine : Nat} {close : Symbol} {wanted : String} {push : σ → δ → σ} {nil : γ}
  {cons : δ → γ → γ} {first : σ → ∀ ts : List (Lexeme α), Reading α δ ts}
  {reader : σ → ∀ ts : List (Lexeme α), Reading α γ ts}

/-- What the reader answers, in terms of its answers on fewer lexemes. -/
theorem reads_iff (h : ReadsItems lastLine close wanted push nil cons first reader) (s : σ)
    {ts rest : List (Lexeme α)} {xs : γ} :
    Reads (reader s ts) xs rest ↔
      ItemStep close (Reads (first s ts))
        (fun x us => ∃ ys, Reads (reader (push s x) us) ys rest ∧ cons x ys = xs)
        (fun x => cons x nil = xs) (nil = xs) ts rest := by
  by_cases hclose : ∃ n vs, ts = mark close n :: vs
  · obtain ⟨n, vs, rfl⟩ := hclose
    rw [itemStep_close_iff, h.closed]
    exact reads_ok_iff
  push Not at hclose
  obtain ⟨next, heq, hmore, hlast, hother⟩ := h.item s ts hclose
  rw [itemStep_iff_of_ne hclose, heq]
  refine reads_item_iff (fun x n vs hvs => ?_) (fun x n vs hvs => ?_) fun x mid hmid hc hl => ?_
  · obtain ⟨p, hnext⟩ := hlast x n vs hvs
    rw [hnext]
    exact reads_ok_iff
  · obtain ⟨p, hnext⟩ := hmore x n vs hvs
    rw [hnext]
    exact reads_map_iff
  · rw [hother x mid hmid hc hl]
    exact not_reads_error

/-- More may be carried from item to item than the reader looks at. -/
theorem comap (h : ReadsItems lastLine close wanted push nil cons first reader) (view : τ → σ)
    {push' : τ → δ → τ} (hpush : ∀ t x, view (push' t x) = push (view t) x) :
    ReadsItems lastLine close wanted push' nil cons (fun t => first (view t))
      fun t => reader (view t) where
  closed t := h.closed (view t)
  item t ts hts := by
    obtain ⟨next, heq, hmore, hlast, hother⟩ := h.item (view t) ts hts
    refine ⟨next, heq, fun x n vs hvs => ?_, hlast, hother⟩
    rw [hpush t x]
    exact hmore x n vs hvs

end ReadsItems

variable [Scalar α] (lastLine : Nat)

theorem readsItems_arguments :
    ReadsItems lastLine .rightParen "`,` or `)`" (fun (_ : Unit) (_ : α) => ()) [] List.cons
      (fun _ ts => expression lastLine 0 ts) fun _ ts => arguments lastLine ts where
  closed _ n ts := by rw [arguments]
  item _ ts hts := by
    rw [arguments]
    · exact ⟨_, rfl, fun _ _ _ _ => ⟨_, rfl⟩, fun _ _ _ _ => ⟨_, rfl⟩,
        fun _ _ _ _ _ => by simp only; rfl⟩
    · exact hts

theorem readsItems_listItems :
    ReadsItems lastLine .rightBracket "`,` or `]`" (fun (_ : Unit) (_ : Arg α) => ()) [] List.cons
      (fun _ ts => value lastLine ts) fun _ ts => listItems lastLine ts where
  closed _ n ts := by rw [listItems]
  item _ ts hts := by
    rw [listItems]
    · exact ⟨_, rfl, fun _ _ _ _ => ⟨_, rfl⟩, fun _ _ _ _ => ⟨_, rfl⟩,
        fun _ _ _ _ _ => by simp only; rfl⟩
    · exact hts

theorem readsItems_parameters :
    ReadsItems lastLine .rightParen "`,` or `)`"
      (fun keyworded (x : Option String × Arg α) => keyworded || x.1.isSome)
      (⟨[], []⟩ : Parameters α) Parameters.cons (parameter lastLine) (parameters lastLine) where
  closed _ n ts := by rw [parameters]
  item _ ts hts := by
    rw [parameters]
    · exact ⟨_, rfl, fun _ _ _ _ => ⟨_, rfl⟩, fun _ _ _ _ => ⟨_, rfl⟩,
        fun _ _ _ _ _ => by simp only; rfl⟩
    · exact hts

end Straightedge.Script
