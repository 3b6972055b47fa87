import Straightedge.Registry.Basic

/-! # Fresh names

Names made of a stem and the smallest number that makes them free. As many numbers as there are
figures may be taken, so a search over one more number always ends with a free one.

* **`firstUntaken`**: the first number of a range that is not taken.
* **`Registry.freshName`**: a stem with a number from one on.
* **`Registry.freshVariant`**: a name, with a number from two on if it is taken.
* **`Registry.pairedNumber`**: the first number for which two names at once are free. -/

namespace Straightedge

/-- The first number from `k` on that is not taken; after `tries` taken numbers, the next one. -/
def firstUntaken (taken : Nat → Bool) (k : Nat) : Nat → Nat
  | 0 => k
  | tries + 1 => if taken k then firstUntaken taken (k + 1) tries else k

theorem le_firstUntaken (taken : Nat → Bool) (k tries : Nat) :
    k ≤ firstUntaken taken k tries := by
  induction tries generalizing k with
  | zero => exact Nat.le_refl _
  | succ tries ih =>
    unfold firstUntaken
    split
    · exact Nat.le_trans (Nat.le_succ k) (ih (k + 1))
    · exact Nat.le_refl _

/-- Every number passed over is taken. -/
theorem taken_of_lt_firstUntaken {taken : Nat → Bool} {k tries i : Nat} (hk : k ≤ i)
    (hi : i < firstUntaken taken k tries) : taken i = true := by
  induction tries generalizing k with
  | zero => exact absurd hi (Nat.not_lt.2 hk)
  | succ tries ih =>
    unfold firstUntaken at hi
    split at hi
    · rename_i hk'
      rcases Nat.eq_or_lt_of_le hk with h | h
      · exact h ▸ hk'
      · exact ih h hi
    · exact absurd hi (Nat.not_lt.2 hk)

namespace Registry

variable {α : Type}

/-- A stem with a number. -/
def numbered (stem : String) (k : Nat) : String := stem ++ Nat.repr k

/-- The stem with the smallest number from one on that makes a free name. -/
def freshName (r : Registry α) (stem : String) : String :=
  numbered stem (firstUntaken (fun k => r.contains (numbered stem k)) 1 r.size)

/-- The name itself if it is free, otherwise with the smallest number from two on that makes a free
name. -/
def freshVariant (r : Registry α) (base : String) : String :=
  if r.contains base then
    numbered base (firstUntaken (fun k => r.contains (numbered base k)) 2 r.size)
  else base

/-- The smallest number from one on for which both names that it makes are free. -/
def pairedNumber (r : Registry α) (first second : Nat → String) : Nat :=
  firstUntaken (fun k => r.contains (first k) || r.contains (second k)) 1 r.size

end Registry

end Straightedge
