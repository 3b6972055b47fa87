import Straightedge.Plane.Line
import Straightedge.Proofs.Plane.RoundingErrors

/-! # Courses of a line

A line through two positions may be given by these, or by the first one and their difference. Either
way it is refused if it has no direction, but the two tests subtract in opposite orders. Both orders
give the same absolute value, in binary64 as well, where a difference may be rounded or may not be
finite.

* **`Binary64.abs_unpack_pack`**: storing a number keeps the absolute value apart from the sign.
* **`Binary64.abs_sub_comm`**: differences in both orders have the same absolute value.
* **`Line.chord_through`**: a line through two positions has the chord of the line along their
  difference. -/

namespace Straightedge

namespace Binary64

open Float.Model (Format UnpackedFloat)
open Float.Model.UnpackedFloat

/-! ## Absolute values of results -/

variable {spec : Format}

/-- The sign of a number does not matter for how its absolute value is rounded. -/
theorem abs_roundWithAccuracy (s t : Sign) (m : Nat) (e : Int) (accuracy : Accuracy) :
    UnpackedFloat.abs (roundWithAccuracy spec s m e accuracy) =
      UnpackedFloat.abs (roundWithAccuracy spec t m e accuracy) := by
  unfold roundWithAccuracy
  generalize shiftToTargetExponent spec m e accuracy = first
  dsimp only
  generalize shiftToTargetExponent spec first.1.roundedMantissa first.2 .exact = second
  by_cases hzero : second.1.mantissa = 0
  · rw [dif_pos hzero, dif_pos hzero]
    rfl
  · rw [dif_neg hzero, dif_neg hzero]
    rfl

/-- Nor does the sign of the mantissa that is rounded. -/
theorem abs_normalize_neg (m e : Int) (zeroSign : Sign) :
    UnpackedFloat.abs (UnpackedFloat.normalize spec (-m) e zeroSign) =
      UnpackedFloat.abs (UnpackedFloat.normalize spec m e zeroSign) := by
  rcases lt_trichotomy m 0 with hm | rfl | hm
  · rw [UnpackedFloat.normalize, UnpackedFloat.normalize, compare_lt_iff_lt.2 hm,
      compare_gt_iff_gt.2 (by omega : -m > 0)]
    exact abs_roundWithAccuracy ..
  · rfl
  · rw [UnpackedFloat.normalize, UnpackedFloat.normalize, compare_gt_iff_gt.2 hm,
      compare_lt_iff_lt.2 (by omega : -m < 0), neg_neg]
    exact abs_roundWithAccuracy ..

/-- Differences in both orders have the same absolute value before they are stored. -/
theorem abs_unpacked_sub_comm (x y : UnpackedFloat) :
    UnpackedFloat.abs (UnpackedFloat.sub spec x y) =
      UnpackedFloat.abs (UnpackedFloat.sub spec y x) := by
  cases x with
  | notANumber => cases y <;> rfl
  | infinity s =>
    cases y with
    | infinity t => cases s <;> cases t <;> rfl
    | _ => rfl
  | zero s =>
    cases y with
    | zero t => cases s <;> cases t <;> rfl
    | _ => rfl
  | finite s m e hm =>
    cases y with
    | finite t n f hn =>
      unfold UnpackedFloat.sub
      dsimp only
      rw [min_comm f e, ← abs_normalize_neg, neg_sub]
    | _ => rfl

/-! ## Absolute values of stored numbers -/

/-- The absolute value of what is stored is told by exponent and mantissa. -/
theorem abs_unpack_packComponents (s t : Sign) (e : BitVec spec.exponentBits)
    (m : BitVec spec.mantissaBitsWithoutImplicit) :
    UnpackedFloat.abs (UnpackedFloat.unpack spec (packComponents spec s e m)) =
      UnpackedFloat.abs (UnpackedFloat.unpack spec (packComponents spec t e m)) := by
  have hexponent (u : Sign) : unpackExponent (packComponents spec u e m) = e :=
    unpackExponent_packComponents
  have hmantissa (u : Sign) : unpackMantissa (packComponents spec u e m) = m :=
    unpackMantissa_packComponents
  have hsame := (hmantissa s).trans (hmantissa t).symm
  delta UnpackedFloat.unpack
  dsimp only
  rw [hexponent s, hexponent t]
  by_cases hmax : e = -BitVec.ofNat _ 1
  · rw [if_pos hmax, if_pos hmax, hsame]
    split <;> rfl
  · rw [if_neg hmax, if_neg hmax]
    by_cases hleast : e = BitVec.ofNat _ 0
    · rw [if_pos hleast, if_pos hleast]
      by_cases hzero : m = BitVec.ofNat _ 0
      · rw [dif_pos ((hmantissa s).trans hzero), dif_pos ((hmantissa t).trans hzero)]
        rfl
      · rw [dif_neg ((hmantissa s).trans_ne hzero), dif_neg ((hmantissa t).trans_ne hzero)]
        exact finite_congr .positive (congrArg BitVec.toNat hsame) rfl _ _
    · rw [if_neg hleast, if_neg hleast]
      exact finite_congr .positive (congrArg (fun n => (1#1 ++ n).toNat) hsame) rfl _ _

/-- **Storing a number keeps the absolute value apart from the sign.** -/
theorem abs_unpack_pack (u : UnpackedFloat) :
    UnpackedFloat.abs (Float.Model.pack u).unpack =
      UnpackedFloat.abs (Float.Model.pack (UnpackedFloat.abs u)).unpack := by
  cases u with
  | notANumber => rfl
  | infinity s => cases s <;> rfl
  | zero s => cases s <;> rfl
  | finite s m e hm =>
    show UnpackedFloat.abs (UnpackedFloat.unpack _ (UnpackedFloat.pack _ _)) =
      UnpackedFloat.abs (UnpackedFloat.unpack _ (UnpackedFloat.pack _ (.finite .positive m e hm)))
    rw [pack_finite, pack_finite]
    split
    · exact abs_unpack_packComponents ..
    · split <;> exact abs_unpack_packComponents ..

/-- **Differences in both orders have the same absolute value**, rounded, infinite or not a number
as they may be. -/
theorem abs_sub_comm (x y : Float) : Scalar.abs (x - y) = Scalar.abs (y - x) := by
  refine congrArg (fun u => Float.ofModel (Float.Model.pack u)) ?_
  show UnpackedFloat.abs (Float.Model.pack _).unpack = UnpackedFloat.abs (Float.Model.pack _).unpack
  rw [abs_unpack_pack, abs_unpacked_sub_comm, ← abs_unpack_pack]

end Binary64

/-! ## Chords -/

namespace Line

variable {α : Type} [Scalar α] (hcomm : ∀ x y : α, Scalar.abs (x - y) = Scalar.abs (y - x))
include hcomm

/-- Two positions count as one if their difference is negligible. -/
theorem same_eq (tol : Tolerance α) (p q : Coord α) :
    tol.same p q = (tol.negligible (q - p).x && tol.negligible (q - p).y) := by
  rw [Tolerance.same, Tolerance.negligible, Tolerance.negligible, hcomm p.x, hcomm p.y]
  rfl

/-- **A line through two positions has the chord of the line along their difference**; if it has no
direction, the error says how it was given. -/
theorem chord_through (tol : Tolerance α) (w : Window α) (p q : Coord α) :
    chord tol w p (.through q) = chord tol w p (.along (q - p)) ∨
      chord tol w p (.through q) = .error (.degenerateLine .coincidentPoints) ∧
        chord tol w p (.along (q - p)) = .error (.degenerateLine .zeroDirection) := by
  by_cases hsame : tol.same p q = true
  · have hthrough : Course.direction tol p (.through q) =
        .error (.degenerateLine .coincidentPoints) := if_pos hsame
    have halong : Course.direction tol p (.along (q - p)) =
        .error (.degenerateLine .zeroDirection) := if_pos (same_eq hcomm tol p q ▸ hsame)
    exact .inr ⟨by rw [chord, hthrough]; rfl, by rw [chord, halong]; rfl⟩
  · have hthrough : Course.direction tol p (.through q) = .ok (q - p) := if_neg hsame
    have halong : Course.direction tol p (.along (q - p)) = .ok (q - p) :=
      if_neg (same_eq hcomm tol p q ▸ hsame)
    exact .inl (by rw [chord, chord, hthrough, halong])

end Line

end Straightedge
