import Mathlib.Data.List.Lex
import Straightedge.Proofs.Plane.Rounding

/-! # Numbers up to the sign of zero

Binary64 has two zeros, which are numerically equal, and a value that is not a number, which equals
nothing. Two numbers that differ in no more than the sign of a zero are told apart by no comparison,
and sums, differences and halves of them again differ in no more than that.

* **`Scalar.Same`**: numerically equal, or both not numbers.
* **`Binary64.rank`**: where a number stands among all others; both zeros stand at one place.
* **`Binary64.same_iff_rank`**: numbers are the same if they stand at one place.
* **`Binary64.rank_smaller`**, **`Binary64.rank_larger`**: extrema in terms of places.
* **`Binary64.Alike`**, **`Binary64.same_iff_alike`**: how the same numbers are stored.
* **`Binary64.Same.add`**, **`Binary64.Same.sub`**, **`Binary64.Same.div`**: arithmetic on the same
  numbers. -/

namespace Straightedge

/-- **Two numbers are the same**: they are numerically equal, or neither is a number. -/
def Scalar.Same {α : Type} [Scalar α] (x y : α) : Prop :=
  Scalar.eq x y = true ∨ Scalar.eq x x = false ∧ Scalar.eq y y = false

namespace Binary64

open Float.Model (Format UnpackedFloat)
open Float.Model.UnpackedFloat

/-! ## Places among all numbers -/

/-- Where a number stands among all others, in lexicographic order: its kind, and if it is finite
its exponent and its mantissa. What is not a number stands nowhere. -/
def unpackedRank : UnpackedFloat → Option (List ℤ)
  | .notANumber => none
  | .infinity .negative => some [-2]
  | .finite .negative m e _ => some [-1, -e, -m]
  | .zero _ => some [0]
  | .finite .positive m e _ => some [1, e, m]
  | .infinity .positive => some [2]

/-- Where a number stands among all others. -/
def rank (x : Float) : Option (List ℤ) := unpackedRank x.toModel.unpack

section Comparisons

variable {e f : ℤ} {m n : ℕ}

theorem then_eq_lt_iff : (compare e f).then (compare m n) = .lt ↔ e < f ∨ e = f ∧ m < n := by
  rw [Ordering.then_eq_lt, compare_lt_iff_lt, compare_lt_iff_lt, compare_eq_iff_eq]

theorem then_eq_gt_iff : (compare e f).then (compare m n) = .gt ↔ f < e ∨ e = f ∧ n < m := by
  rw [Ordering.then_eq_gt, compare_gt_iff_gt, compare_gt_iff_gt, compare_eq_iff_eq]

end Comparisons

/-- A number lies below another one if it stands before it. -/
theorem unpacked_lt_iff (u v : UnpackedFloat) :
    UnpackedFloat.lt u v = true ↔
      ∃ a ∈ unpackedRank u, ∃ b ∈ unpackedRank v, a < b := by
  unfold UnpackedFloat.lt
  rcases u with (_ | _) | _ | s | ⟨_ | _, m, e, hm⟩ <;>
    rcases v with (_ | _) | _ | t | ⟨_ | _, n, f, hn⟩ <;>
    dsimp only [UnpackedFloat.compare, unpackedRank] <;>
    simp [then_eq_lt_iff, then_eq_gt_iff, Ordering.swap_eq_lt, List.cons_lt_cons_iff]
  rfl

/-- Numbers are numerically equal if they stand at one place. -/
theorem unpacked_beq_iff (u v : UnpackedFloat) :
    UnpackedFloat.beq u v = true ↔
      unpackedRank u = unpackedRank v ∧ (unpackedRank u).isSome = true := by
  unfold UnpackedFloat.beq
  rcases u with (_ | _) | _ | s | ⟨_ | _, m, e, hm⟩ <;>
    rcases v with (_ | _) | _ | t | ⟨_ | _, n, f, hn⟩ <;>
    dsimp only [UnpackedFloat.compare, unpackedRank] <;>
    simp [Ordering.swap_eq_eq]
  · rfl
  · rfl

theorem lt_iff_rank {x y : Float} :
    Scalar.lt x y = true ↔ ∃ a ∈ rank x, ∃ b ∈ rank y, a < b :=
  decide_eq_true_iff.trans (unpacked_lt_iff x.toModel.unpack y.toModel.unpack)

theorem eq_iff_rank {x y : Float} :
    Scalar.eq x y = true ↔ rank x = rank y ∧ (rank x).isSome = true :=
  unpacked_beq_iff x.toModel.unpack y.toModel.unpack

/-- A number equals itself unless it is none. -/
theorem eq_self_iff {x : Float} : Scalar.eq x x = true ↔ (rank x).isSome = true := by
  rw [eq_iff_rank, eq_self_iff_true, true_and]

/-- **Numbers are the same exactly if they stand at one place.** -/
theorem same_iff_rank {x y : Float} : Scalar.Same x y ↔ rank x = rank y := by
  simp only [Scalar.Same, ← Bool.not_eq_true, eq_self_iff, eq_iff_rank]
  cases hx : rank x <;> cases hy : rank y <;> simp

theorem same_refl (x : Float) : Scalar.Same x x := same_iff_rank.2 rfl

/-- Comparisons do not tell the same numbers apart. -/
theorem Same.lt_congr {x x' y y' : Float} (hx : Scalar.Same x x') (hy : Scalar.Same y y') :
    Scalar.lt x y = Scalar.lt x' y' := by
  rw [Bool.eq_iff_iff, lt_iff_rank, lt_iff_rank, same_iff_rank.1 hx, same_iff_rank.1 hy]

/-! ## Extrema -/

/-- Below one another, if both stand somewhere. -/
theorem lt_eq_decide {x y : Float} {a b : List ℤ} (hx : rank x = some a) (hy : rank y = some b) :
    Scalar.lt x y = decide (a < b) := by
  rw [Bool.eq_iff_iff, lt_iff_rank, decide_eq_true_iff, hx, hy]
  simp

/-- A choice between two numbers that passes over what is not a number stands where the choice
between their places leads. -/
theorem rank_choice {x y : Float} {first : Bool} {f : List ℤ → List ℤ → List ℤ}
    (hnone : rank x = none → first = false)
    (hsome : ∀ a b, rank x = some a → rank y = some b → f a b = if first then a else b) :
    rank (if first || !Scalar.eq y y then x else y) = Option.merge f (rank x) (rank y) := by
  cases hy : rank y with
  | none =>
    have heq : Scalar.eq y y = false := by
      rw [← Bool.not_eq_true, eq_self_iff, hy]
      exact Bool.false_ne_true
    rw [heq, Bool.not_false, Bool.or_true, if_pos rfl, Option.merge_none_right]
  | some b =>
    have heq : Scalar.eq y y = true := by rw [eq_self_iff, hy, Option.isSome_some]
    rw [heq, Bool.not_true, Bool.or_false]
    cases hx : rank x with
    | none => rw [hnone hx, if_neg Bool.false_ne_true, hy, Option.merge_none_left]
    | some a =>
      rw [Option.merge_some_some, hsome a b hx hy]
      split
      · exact hx
      · exact hy

/-- Nothing lies below or above what is not a number. -/
theorem lt_eq_false_of_none {x y : Float} (h : rank x = none ∨ rank y = none) :
    Scalar.lt x y = false := by
  rw [← Bool.not_eq_true, lt_iff_rank]
  rintro ⟨a, ha, b, hb, -⟩
  rcases h with h | h
  · rw [h] at ha
    cases ha
  · rw [h] at hb
    cases hb

/-- **The smaller of two numbers** stands at the first of their places. -/
theorem rank_smaller (x y : Float) :
    rank (Scalar.smaller x y) = Option.merge min (rank x) (rank y) := by
  refine rank_choice (fun h => lt_eq_false_of_none (.inl h)) fun a b hx hy => ?_
  simp only [lt_eq_decide hx hy, decide_eq_true_eq]
  split
  · exact min_eq_left (le_of_lt ‹_›)
  · exact min_eq_right (not_lt.1 ‹_›)

/-- **The larger of two numbers** stands at the last of their places. -/
theorem rank_larger (x y : Float) :
    rank (Scalar.larger x y) = Option.merge max (rank x) (rank y) := by
  refine rank_choice (fun h => lt_eq_false_of_none (.inr h)) fun a b hx hy => ?_
  simp only [lt_eq_decide hy hx, decide_eq_true_eq]
  split
  · exact max_eq_left (le_of_lt ‹_›)
  · exact max_eq_right (not_lt.1 ‹_›)

/-! ## Arithmetic -/

/-- How the same numbers are stored: alike, or as the two zeros. -/
inductive Alike : UnpackedFloat → UnpackedFloat → Prop
  | refl (u : UnpackedFloat) : Alike u u
  | zero (s t : Sign) : Alike (.zero s) (.zero t)

/-- A place holds one number or both zeros. -/
theorem unpackedRank_eq_iff {u v : UnpackedFloat} :
    unpackedRank u = unpackedRank v ↔ Alike u v := by
  constructor
  · intro h
    rcases u with (_ | _) | _ | s | ⟨_ | _, m, e, hm⟩ <;>
      rcases v with (_ | _) | _ | t | ⟨_ | _, n, f, hn⟩ <;>
      dsimp only [unpackedRank] at h <;>
      simp at h
    case zero.zero => exact .zero s t
    case finite.negative.finite.negative | finite.positive.finite.positive =>
      obtain ⟨rfl, rfl⟩ := h
      exact .refl _
    all_goals exact .refl _
  · rintro (_ | _) <;> rfl

/-- **The same numbers are stored alike**, zeros apart. -/
theorem same_iff_alike {x y : Float} :
    Scalar.Same x y ↔ Alike x.toModel.unpack y.toModel.unpack :=
  same_iff_rank.trans unpackedRank_eq_iff

namespace Alike

variable {u u' v v' : UnpackedFloat}

theorem trans (h : Alike u v) (h' : Alike v v') : Alike u v' :=
  unpackedRank_eq_iff.1 ((unpackedRank_eq_iff.2 h).trans (unpackedRank_eq_iff.2 h'))

theorem neg (h : Alike u v) : Alike (UnpackedFloat.neg u) (UnpackedFloat.neg v) := by
  cases h with
  | refl => exact .refl _
  | zero s t => exact .zero _ _

/-- In a sum, the sign of a zero matters for the sign of a zero only. -/
theorem add_zero_left (spec : Format) (s t : Sign) (v : UnpackedFloat) :
    Alike (UnpackedFloat.add spec (.zero s) v) (UnpackedFloat.add spec (.zero t) v) := by
  cases v with
  | zero r => cases s <;> cases t <;> cases r <;> exact .zero _ _
  | notANumber => exact .refl _
  | infinity _ => exact .refl _
  | finite _ _ _ _ => exact .refl _

theorem add_zero_right (spec : Format) (s t : Sign) (u : UnpackedFloat) :
    Alike (UnpackedFloat.add spec u (.zero s)) (UnpackedFloat.add spec u (.zero t)) := by
  cases u with
  | zero r => cases s <;> cases t <;> cases r <;> exact .zero _ _
  | notANumber => exact .refl _
  | infinity _ => exact .refl _
  | finite _ _ _ _ => exact .refl _

/-- Sums of the same numbers are the same. -/
theorem add (spec : Format) (hu : Alike u u') (hv : Alike v v') :
    Alike (UnpackedFloat.add spec u v) (UnpackedFloat.add spec u' v') := by
  have hleft : Alike (UnpackedFloat.add spec u v) (UnpackedFloat.add spec u' v) := by
    cases hu with
    | refl => exact .refl _
    | zero s t => exact add_zero_left spec s t v
  have hright : Alike (UnpackedFloat.add spec u' v) (UnpackedFloat.add spec u' v') := by
    cases hv with
    | refl => exact .refl _
    | zero s t => exact add_zero_right spec s t u'
  exact hleft.trans hright

/-- Differences of the same numbers are the same. -/
theorem sub (spec : Format) (hu : Alike u u') (hv : Alike v v') :
    Alike (UnpackedFloat.sub spec u v) (UnpackedFloat.sub spec u' v') := by
  rw [sub_eq_add_neg, sub_eq_add_neg]
  exact hu.add spec hv.neg

/-- Quotients of the same numbers by one number are the same. The sign of a zero that is divided
by does matter. -/
theorem div (spec : Format) (hu : Alike u u') (v : UnpackedFloat) :
    Alike (UnpackedFloat.div spec u v) (UnpackedFloat.div spec u' v) := by
  cases hu with
  | refl => exact .refl _
  | zero s t =>
    cases v with
    | zero r => exact .refl _
    | notANumber => exact .refl _
    | infinity r => exact .zero _ _
    | finite r m e hm => exact .zero _ _

/-- Storing keeps the same numbers the same. -/
theorem unpack_pack (h : Alike u v) :
    Alike (Float.Model.pack u).unpack (Float.Model.pack v).unpack := by
  cases h with
  | refl => exact .refl _
  | zero s t => cases s <;> cases t <;> first | exact .refl _ | exact .zero _ _

end Alike

namespace Same

variable {x x' y y' : Float}

/-- **Sums of the same numbers are the same.** -/
theorem add (hx : Scalar.Same x x') (hy : Scalar.Same y y') : Scalar.Same (x + y) (x' + y') :=
  same_iff_alike.2 (((same_iff_alike.1 hx).add _ (same_iff_alike.1 hy)).unpack_pack)

/-- **Differences of the same numbers are the same.** -/
theorem sub (hx : Scalar.Same x x') (hy : Scalar.Same y y') : Scalar.Same (x - y) (x' - y') :=
  same_iff_alike.2 (((same_iff_alike.1 hx).sub _ (same_iff_alike.1 hy)).unpack_pack)

/-- **Quotients of the same numbers by one number are the same.** -/
theorem div (hx : Scalar.Same x x') (y : Float) : Scalar.Same (x / y) (x' / y) :=
  same_iff_alike.2 (((same_iff_alike.1 hx).div _ y.toModel.unpack).unpack_pack)

end Same

end Binary64

end Straightedge
