import Mathlib.Data.List.Perm.Subperm
import Straightedge.Proofs.Registry.Index
import Straightedge.Registry.FreshName

/-! # Fresh names are free

The searches for a free number are bounded by the number of figures. A registry without two figures
of one name cannot hold one more name than it has figures, so none of them ends on a taken name.

* **`Registry.Indexed.exists_not_contains`**: of one more name than there are figures, one is free.
* **`Registry.Indexed.not_contains_freshName`**, **`Registry.Indexed.not_contains_freshVariant`**:
  generated names are not taken.
* **`Registry.Indexed.not_contains_pairedNumber`**: nor is either name of a pair. -/

namespace Straightedge

/-! ## Numbers that are not taken -/

/-- If the search ends on a taken number, every number in its range is taken. -/
theorem taken_of_taken_firstUntaken {taken : Nat → Bool} {k tries : Nat}
    (h : taken (firstUntaken taken k tries) = true) : ∀ i ≤ tries, taken (k + i) = true := by
  -- a taken end means that every number before it was taken as well
  induction tries generalizing k with
  | zero =>
    intro i hi
    obtain rfl : i = 0 := Nat.le_zero.1 hi
    exact h
  | succ tries ih =>
    unfold firstUntaken at h
    split at h
    · rename_i hk
      intro i hi
      cases i with
      | zero => exact hk
      | succ i =>
        rw [Nat.add_succ, ← Nat.succ_add]
        exact ih h i (Nat.le_of_succ_le_succ hi)
    · rename_i hk
      exact absurd h hk

/-! ## Numbered names -/

/-- The digits of a number tell the number. -/
theorem repr_injective : Function.Injective Nat.repr := by
  intro m n h
  -- reading the digits gives the number back
  have hdigits := congrArg (fun text => Nat.ofDigitChars 10 text.toList 0) h
  simpa using hdigits

namespace Registry

variable {α : Type}

/-- A stem makes different names with different numbers. -/
theorem numbered_injective (stem : String) : Function.Injective (numbered stem) := by
  intro m n h
  exact repr_injective ((String.append_right_inj stem).1 h)

/-- A numbered name is not empty. -/
theorem numbered_ne_empty (stem : String) (k : Nat) : numbered stem k ≠ "" := by
  intro h
  have hempty : (numbered stem k).toList = [] := by rw [h]; rfl
  rw [numbered, String.toList_append, List.append_eq_nil_iff] at hempty
  exact Nat.repr_ne_empty (String.toList_injective hempty.2)

/-! ## One name too many -/

namespace Indexed

variable {r : Registry α}

/-- **Of one more name than there are figures, one is not taken.** -/
theorem exists_not_contains (h : r.Indexed) (name : Nat → String)
    (hname : Function.Injective name) : ∃ i ≤ r.size, r.contains (name i) = false := by
  by_contra hall
  push Not at hall
  -- otherwise all of the `r.size + 1` names would be among the `r.size` names of the registry
  have hsub : (List.range (r.size + 1)).map name ⊆ r.names := by
    intro other hother
    obtain ⟨i, hi, rfl⟩ := List.mem_map.1 hother
    rw [List.mem_range] at hi
    exact (h.contains_iff _).1 (eq_true_of_ne_false (hall i (Nat.le_of_lt_succ hi)))
  have hnodup : ((List.range (r.size + 1)).map name).Nodup := List.nodup_range.map hname
  have hlength := (hnodup.subperm hsub).length_le
  simp only [List.length_map, List.length_range, names, toList, Array.length_toList, size]
    at hlength
  omega

/-- A search over the numbers of different names, one for each figure and one more, ends on a
number whose name is free. -/
theorem not_taken_firstUntaken (h : r.Indexed) (taken : Nat → Bool) (name : Nat → String)
    (hname : Function.Injective name) (htaken : ∀ k, taken k = true → r.contains (name k) = true)
    (k : Nat) : taken (firstUntaken taken k r.size) = false := by
  by_contra hend
  have hall := taken_of_taken_firstUntaken (eq_true_of_ne_false hend)
  -- the search has looked at this free name and would have ended there
  obtain ⟨i, hi, hfree⟩ := h.exists_not_contains (fun i => name (k + i))
    fun i j hij => Nat.add_left_cancel (hname hij)
  rw [htaken _ (hall i hi)] at hfree
  exact Bool.noConfusion hfree

/-- **A stem with the first free number is not taken.** -/
theorem not_contains_freshName (h : r.Indexed) (stem : String) :
    r.contains (r.freshName stem) = false :=
  h.not_taken_firstUntaken _ _ (numbered_injective stem) (fun _ hk => hk) 1

/-- **A name with a number where needed is not taken.** -/
theorem not_contains_freshVariant (h : r.Indexed) (base : String) :
    r.contains (r.freshVariant base) = false := by
  unfold freshVariant
  split
  · exact h.not_taken_firstUntaken _ _ (numbered_injective base) (fun _ hk => hk) 2
  · rename_i hbase
    exact eq_false_of_ne_true hbase

/-- **Neither name of the first free pair is taken**, if the names that different numbers make are
different, whichever of the pair they are. -/
theorem not_contains_pairedNumber (h : r.Indexed) (first second : Nat → String)
    (hfirst : Function.Injective first) (hsecond : Function.Injective second)
    (hne : ∀ i j, first i ≠ second j) :
    r.contains (first (r.pairedNumber first second)) = false ∧
      r.contains (second (r.pairedNumber first second)) = false := by
  rw [← Bool.or_eq_false_iff, pairedNumber]
  -- a taken pair is charged to whichever of its names is taken
  refine h.not_taken_firstUntaken (fun k => r.contains (first k) || r.contains (second k))
    (fun k => if r.contains (first k) then first k else second k) ?_ ?_ 1
  · intro i j hij
    simp only at hij
    split at hij <;> split at hij
    · exact hfirst hij
    · exact absurd hij (hne i j)
    · exact absurd hij.symm (hne j i)
    · exact hsecond hij
  · intro k hk
    split
    · assumption
    · rename_i hk'
      simpa [hk'] using hk

end Indexed

end Registry

end Straightedge
