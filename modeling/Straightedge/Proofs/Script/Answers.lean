import Straightedge.Proofs.Inversion
import Straightedge.Proofs.Script.Grammar
import Straightedge.Script.Expression

/-! # Answers of readers

A reader answers with a value and the lexemes it leaves, or with an error. Readers are told apart
from each other by the values and the rests of their answers only.

* **`Reads`**: an answer is a value, with some lexemes left.
* **`reads_bind_iff_of`**, **`reads_map_iff`**: the steps of a reader.
* **`ItemStep`**: one step of a reader of items up to a closing symbol.
* **`ItemsRead`**: all of its steps. -/

namespace Straightedge.Script

variable {α β γ : Type} {bound bound' : Nat}

/-! ## Answers -/

/-- A reader's answer is the value `x`, and `rest` is left. -/
def Reads (answer : Except ParseError (Rest α β bound)) (x : β) (rest : List (Lexeme α)) : Prop :=
  ∃ h, answer = .ok ⟨x, rest, h⟩

/-- What is left is shorter than the bound. -/
theorem Reads.length_lt {answer : Except ParseError (Rest α β bound)} {x : β}
    {rest : List (Lexeme α)} (h : Reads answer x rest) : rest.length < bound := by
  obtain ⟨h, -⟩ := h
  exact h

theorem reads_ok_iff {r : Rest α β bound} {x : β} {rest : List (Lexeme α)} :
    Reads (.ok r) x rest ↔ r.value = x ∧ r.lexemes = rest := by
  obtain ⟨y, rest', h⟩ := r
  constructor
  · rintro ⟨_, h⟩
    cases h
    exact ⟨rfl, rfl⟩
  · rintro ⟨rfl, rfl⟩
    exact ⟨h, rfl⟩

theorem reads_pure_iff {r : Rest α β bound} {x : β} {rest : List (Lexeme α)} :
    Reads (pure r) x rest ↔ r.value = x ∧ r.lexemes = rest :=
  reads_ok_iff

theorem not_reads_error {e : ParseError} {x : β} {rest : List (Lexeme α)} :
    ¬Reads (.error e : Except ParseError (Rest α β bound)) x rest := by
  rintro ⟨_, h⟩
  cases h

theorem not_reads_throw {e : ParseError} {x : β} {rest : List (Lexeme α)} :
    ¬Reads (throw e : Except ParseError (Rest α β bound)) x rest :=
  not_reads_error

theorem reads_bind_iff {first : Except ParseError (Rest α γ bound')}
    {next : Rest α γ bound' → Except ParseError (Rest α β bound)} {x : β}
    {rest : List (Lexeme α)} :
    Reads (first >>= next) x rest ↔
      ∃ y mid h, first = .ok ⟨y, mid, h⟩ ∧ Reads (next ⟨y, mid, h⟩) x rest := by
  constructor
  · rintro ⟨h, hnext⟩
    obtain ⟨⟨y, mid, hmid⟩, hfirst, hnext⟩ := bind_eq_ok_iff.1 hnext
    exact ⟨y, mid, hmid, hfirst, h, hnext⟩
  · rintro ⟨y, mid, hmid, hfirst, h, hnext⟩
    exact ⟨h, bind_eq_ok_iff.2 ⟨_, hfirst, hnext⟩⟩

/-- A step whose continuation looks at the value and at the lexemes left, and at nothing else. -/
theorem reads_bind_iff_of {first : Except ParseError (Rest α γ bound')}
    {next : Rest α γ bound' → Except ParseError (Rest α β bound)} {x : β}
    {rest : List (Lexeme α)} {P : γ → List (Lexeme α) → Prop}
    (hnext : ∀ y mid h, Reads (next ⟨y, mid, h⟩) x rest ↔ P y mid) :
    Reads (first >>= next) x rest ↔ ∃ y mid, Reads first y mid ∧ P y mid := by
  rw [reads_bind_iff]
  constructor
  · rintro ⟨y, mid, h, hfirst, hP⟩
    exact ⟨y, mid, ⟨h, hfirst⟩, (hnext y mid h).1 hP⟩
  · rintro ⟨y, mid, ⟨h, hfirst⟩, hP⟩
    exact ⟨y, mid, h, hfirst, (hnext y mid h).2 hP⟩

/-- A last step that makes another value of the one that was read. -/
theorem reads_map_iff {first : Except ParseError (Rest α γ bound')} {g : γ → β}
    {p : ∀ r : Rest α γ bound', r.lexemes.length < bound} {x : β} {rest : List (Lexeme α)} :
    Reads (do let r ← first; return ⟨g r.value, r.lexemes, p r⟩) x rest ↔
      ∃ y, Reads first y rest ∧ g y = x := by
  rw [reads_bind_iff]
  constructor
  · rintro ⟨y, mid, h, hfirst, hpure⟩
    obtain ⟨rfl, rfl⟩ := reads_pure_iff.1 hpure
    exact ⟨y, ⟨h, hfirst⟩, rfl⟩
  · rintro ⟨y, ⟨h, hfirst⟩, rfl⟩
    exact ⟨y, rest, h, hfirst, reads_pure_iff.2 ⟨rfl, rfl⟩⟩

/-- A last step that keeps the value that was read. -/
theorem reads_keep_iff {first : Except ParseError (Rest α β bound')}
    {p : ∀ r : Rest α β bound', r.lexemes.length < bound} {x : β} {rest : List (Lexeme α)} :
    Reads (do let r ← first; return ⟨r.value, r.lexemes, p r⟩) x rest ↔ Reads first x rest := by
  rw [reads_map_iff (g := fun y => y)]
  exact ⟨fun ⟨_, h, hx⟩ => hx ▸ h, fun h => ⟨x, h, rfl⟩⟩

/-! ## Items up to a closing symbol -/

/-- What a reader of items answers: nothing is left to read before the closing symbol, or there is
an item, and after it the closing symbol or a comma with more items. -/
def ItemStep (close : Symbol) (item : γ → List (Lexeme α) → Prop)
    (more : γ → List (Lexeme α) → Prop) (last : γ → Prop) (none : Prop)
    (ts rest : List (Lexeme α)) : Prop :=
  (∃ n, ts = mark close n :: rest ∧ none) ∨
    (∀ n us, ts ≠ mark close n :: us) ∧ ∃ y mid, item y mid ∧
      ((∃ n, mid = mark close n :: rest ∧ last y) ∨ ∃ n us, mid = mark .comma n :: us ∧ more y us)

section

variable {close : Symbol} {item : γ → List (Lexeme α) → Prop}
  {more more' : γ → List (Lexeme α) → Prop} {last : γ → Prop} {none : Prop}
  {ts rest : List (Lexeme α)}

theorem itemStep_close_iff {n : Nat} {us : List (Lexeme α)} :
    ItemStep close item more last none (mark close n :: us) rest ↔ none ∧ us = rest := by
  constructor
  · rintro (⟨_, h, hnone⟩ | ⟨h, -⟩)
    · cases h
      exact ⟨hnone, rfl⟩
    · exact absurd rfl (h n us)
  · rintro ⟨hnone, rfl⟩
    exact .inl ⟨n, rfl, hnone⟩

theorem itemStep_iff_of_ne (hts : ∀ n us, ts ≠ mark close n :: us) :
    ItemStep close item more last none ts rest ↔ ∃ y mid, item y mid ∧
      ((∃ n, mid = mark close n :: rest ∧ last y) ∨
        ∃ n us, mid = mark .comma n :: us ∧ more y us) := by
  constructor
  · rintro (⟨n, h, -⟩ | ⟨-, h⟩)
    · exact absurd h (hts n rest)
    · exact h
  · intro h
    exact .inr ⟨hts, h⟩

/-- The items after a comma may be told in another way. -/
theorem itemStep_congr
    (h : ∀ y n us, item y (mark .comma n :: us) → (more y us ↔ more' y us)) :
    ItemStep close item more last none ts rest ↔ ItemStep close item more' last none ts rest := by
  refine or_congr_right (and_congr_right fun _ => exists₂_congr fun y mid =>
    and_congr_right fun hitem => or_congr_right (exists₂_congr fun n us => and_congr_right ?_))
  rintro rfl
  exact h y n us hitem

/-- After an item a reader goes on behind a comma, ends behind the closing symbol, and fails before
anything else. -/
theorem reads_item_iff {first : Except ParseError (Rest α γ bound')}
    {next : Rest α γ bound' → Except ParseError (Rest α β bound)} {x : β}
    (hclose : ∀ y n us h, Reads (next ⟨y, mark close n :: us, h⟩) x rest ↔ last y ∧ us = rest)
    (hcomma : ∀ y n us h, Reads (next ⟨y, mark .comma n :: us, h⟩) x rest ↔ more y us)
    (hother : ∀ y mid h, (∀ n us, mid ≠ mark .comma n :: us) →
      (∀ n us, mid ≠ mark close n :: us) → ¬Reads (next ⟨y, mid, h⟩) x rest) :
    Reads (first >>= next) x rest ↔ ∃ y mid, Reads first y mid ∧
      ((∃ n, mid = mark close n :: rest ∧ last y) ∨
        ∃ n us, mid = mark .comma n :: us ∧ more y us) := by
  refine reads_bind_iff_of fun y mid h => ?_
  constructor
  -- what follows the item decides: a comma, the closing symbol or something else
  · intro hnext
    by_cases hc : ∃ n us, mid = mark .comma n :: us
    · obtain ⟨n, us, rfl⟩ := hc
      exact .inr ⟨n, us, rfl, (hcomma y n us h).1 hnext⟩
    · by_cases hl : ∃ n us, mid = mark close n :: us
      · obtain ⟨n, us, rfl⟩ := hl
        obtain ⟨hlast, rfl⟩ := (hclose y n us h).1 hnext
        exact .inl ⟨n, rfl, hlast⟩
      · push Not at hc hl
        exact absurd hnext (hother y mid h hc hl)
  · rintro (⟨n, rfl, hlast⟩ | ⟨n, us, rfl, hmore⟩)
    · exact (hclose y n rest h).2 ⟨hlast, rfl⟩
    · exact (hcomma y n us h).2 hmore

end

/-- Items that `item` reads one after another with commas between them, up to a closing symbol; one
more comma may stand before it. -/
inductive ItemsRead (close : Symbol) (item : List (Lexeme α) → β → List (Lexeme α) → Prop) :
    List (Lexeme α) → List β → List (Lexeme α) → Prop
  | close (n : Nat) (rest : List (Lexeme α)) : ItemsRead close item (mark close n :: rest) [] rest
  | last {ts rest : List (Lexeme α)} {x : β} (n : Nat) (hts : ∀ n us, ts ≠ mark close n :: us)
      (h : item ts x (mark close n :: rest)) : ItemsRead close item ts [x] rest
  | cons {ts us rest : List (Lexeme α)} {x : β} {xs : List β} (n : Nat)
      (hts : ∀ n us, ts ≠ mark close n :: us) (h : item ts x (mark .comma n :: us))
      (hs : ItemsRead close item us xs rest) : ItemsRead close item ts (x :: xs) rest

theorem itemsRead_iff {close : Symbol} {item : List (Lexeme α) → β → List (Lexeme α) → Prop}
    {ts rest : List (Lexeme α)} {xs : List β} :
    ItemsRead close item ts xs rest ↔
      ItemStep close (item ts) (fun y us => ∃ ys, ItemsRead close item us ys rest ∧ y :: ys = xs)
        (fun y => [y] = xs) ([] = xs) ts rest := by
  constructor
  · intro h
    cases h with
    | close n => exact .inl ⟨n, rfl, rfl⟩
    | last n hts h => exact .inr ⟨hts, _, _, h, .inl ⟨_, rfl, rfl⟩⟩
    | cons n hts h hs => exact .inr ⟨hts, _, _, h, .inr ⟨_, _, rfl, _, hs, rfl⟩⟩
  · rintro (⟨n, rfl, rfl⟩ | ⟨hts, x, mid, h, ⟨n, rfl, rfl⟩ | ⟨n, us, rfl, ys, hs, rfl⟩⟩)
    · exact .close n rest
    · exact .last n hts h
    · exact .cons n hts h hs

end Straightedge.Script
