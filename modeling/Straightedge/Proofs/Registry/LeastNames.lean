import Mathlib.Order.Bounds.Basic
import Straightedge.Proofs.Registry.FreshNames

/-! # Generated names have the least free numbers

The searches for a free number are bounded by the number of figures. Without the bound they would
end on the same number, and it is the least one that is free.

* **`Probe`**: a search without a bound.
* **`probe_iff_isLeast`**: it ends exactly on the least number that is not taken.
* **`LeastFree`**, **`leastFree_firstUntaken`**: a bounded search that ends on a free number ends
  there too.
* **`Registry.Indexed.leastFree_freshName`**, **`Registry.Indexed.leastFree_freshVariant`**,
  **`Registry.Indexed.leastFree_pairedNumber`**: so do the searches for names. -/

namespace Straightedge

/-! ## Searches without a bound -/

/-- **A search without a bound**: it goes on to the next number as long as the number is taken, and
ends on the first one that is not. -/
inductive Probe (taken : Nat → Bool) : Nat → Nat → Prop
  | stop {k : Nat} (h : taken k = false) : Probe taken k k
  | next {k n : Nat} (h : taken k = true) (hn : Probe taken (k + 1) n) : Probe taken k n

variable {taken : Nat → Bool} {k n : Nat}

/-- From one number on and from the next one on there are the same free numbers, if the first one
is taken. -/
theorem isLeast_succ_iff (h : taken k = true) :
    IsLeast {i | k + 1 ≤ i ∧ taken i = false} n ↔ IsLeast {i | k ≤ i ∧ taken i = false} n := by
  have hset : {i | k + 1 ≤ i ∧ taken i = false} = {i | k ≤ i ∧ taken i = false} := by
    ext i
    constructor
    · rintro ⟨hle, hi⟩
      exact ⟨Nat.le_of_succ_le hle, hi⟩
    · rintro ⟨hle, hi⟩
      refine ⟨Nat.lt_of_le_of_ne hle ?_, hi⟩
      rintro rfl
      exact absurd (h.symm.trans hi) Bool.noConfusion
  rw [hset]

/-- **A search without a bound ends exactly on the least number that is not taken.** -/
theorem probe_iff_isLeast : Probe taken k n ↔ IsLeast {i | k ≤ i ∧ taken i = false} n := by
  constructor
  · intro h
    induction h with
    | stop h => exact ⟨⟨Nat.le_refl _, h⟩, fun i hi => hi.1⟩
    | next h _ ih => exact (isLeast_succ_iff h).1 ih
  · intro h
    -- by induction on how far the number is
    induction hd : n - k generalizing k with
    | zero =>
      obtain rfl : n = k := Nat.le_antisymm (Nat.le_of_sub_eq_zero hd) h.1.1
      exact .stop h.1.2
    | succ d ih =>
      cases hk : taken k with
      | false =>
        have hle : n ≤ k := h.2 ⟨Nat.le_refl k, hk⟩
        omega
      | true => exact .next hk (ih ((isLeast_succ_iff hk).2 h) (by omega))

/-- **A number is the least free one** of those from `first` on, and a search without a bound ends
there. -/
structure LeastFree (taken : Nat → Bool) (first k : Nat) : Prop where
  /-- The search ends on the number. -/
  ends : Probe taken first k
  /-- No other free number is smaller. -/
  isLeast : IsLeast {i | first ≤ i ∧ taken i = false} k

/-- A search without a bound ends on the least free number. -/
theorem Probe.leastFree (h : Probe taken k n) : LeastFree taken k n := ⟨h, probe_iff_isLeast.1 h⟩

/-- **A bounded search that ends on a free number ends where the search without a bound does.** -/
theorem leastFree_firstUntaken {tries : Nat} (h : taken (firstUntaken taken k tries) = false) :
    LeastFree taken k (firstUntaken taken k tries) := by
  refine (probe_iff_isLeast.2 ⟨⟨le_firstUntaken taken k tries, h⟩, fun i ⟨hk, hi⟩ => ?_⟩).leastFree
  by_contra hlt
  -- what was passed over is taken
  exact absurd ((taken_of_lt_firstUntaken hk (Nat.lt_of_not_le hlt)).symm.trans hi)
    Bool.noConfusion

/-! ## Names -/

namespace Registry.Indexed

variable {α : Type} {r : Registry α}

/-- **A fresh name has the least number from one on** that makes it free. -/
theorem leastFree_freshName (h : r.Indexed) (stem : String) :
    ∃ k, LeastFree (fun i => r.contains (numbered stem i)) 1 k ∧
      r.freshName stem = numbered stem k :=
  ⟨_, leastFree_firstUntaken (h.not_contains_freshName stem), rfl⟩

/-- **A variant of a taken name has the least number from two on** that makes it free. -/
theorem leastFree_freshVariant (h : r.Indexed) {base : String} (hbase : r.contains base = true) :
    ∃ k, LeastFree (fun i => r.contains (numbered base i)) 2 k ∧
      r.freshVariant base = numbered base k := by
  have hfree := h.not_contains_freshVariant base
  rw [freshVariant, if_pos hbase] at hfree ⊢
  exact ⟨_, leastFree_firstUntaken hfree, rfl⟩

/-- **A pair has the least number from one on** that makes both of its names free, if the names that
different numbers make are different, whichever of the pair they are. -/
theorem leastFree_pairedNumber (h : r.Indexed) {first second : Nat → String}
    (hfirst : Function.Injective first) (hsecond : Function.Injective second)
    (hne : ∀ i j, first i ≠ second j) :
    LeastFree (fun i => r.contains (first i) || r.contains (second i)) 1
      (r.pairedNumber first second) :=
  leastFree_firstUntaken
    (Bool.or_eq_false_iff.2 (h.not_contains_pairedNumber first second hfirst hsecond hne))

end Registry.Indexed

end Straightedge
