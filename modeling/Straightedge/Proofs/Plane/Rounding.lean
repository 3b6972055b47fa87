import Mathlib.Algebra.Order.Field.Power
import Mathlib.Tactic.Linarith
import Mathlib.Tactic.NormNum
import Straightedge.Binary64

/-! # Sizes of binary64 numbers

A sum of finite numbers may be too large to be finite. Rounding never carries a number past a bound
that is a binary64 number itself, so whoever knows the sizes of two numbers knows that their sum is
finite if the sum of the sizes is within the bound.

* **`Binary64.Bound`**: a bound that is a binary64 number.
* **`Binary64.AtMost`**: a finite number whose absolute value is within a bound.
* **`Binary64.within_roundWithAccuracy`**: rounding keeps to a bound.
* **`Binary64.AtMost.add`**, **`Binary64.AtMost.sub`**, **`Binary64.AtMost.half`**: sizes of
  results.
* **`Binary64.isFinite_of_add`** and its likes: a finite result comes from finite operands.
* **`Binary64.isFinite_beside_iff`**: half a length beside half a sum. -/

namespace Straightedge.Binary64

open Float.Model (Format UnpackedFloat totalExponent)
open Float.Model.UnpackedFloat

/-! ## Bounds -/

/-- A size that binary64 can hold exactly. -/
structure Bound where
  /-- The mantissa, of at most 53 bits. -/
  mantissa : Nat
  /-- The exponent of two. -/
  exponent : Int
  mantissa_lt : mantissa < 2 ^ 53 := by decide
  least_le : -1074 ≤ exponent := by decide
  le_greatest : exponent ≤ 971 := by decide

/-- The number a bound stands for. -/
def Bound.value (b : Bound) : ℚ := b.mantissa * 2 ^ b.exponent

/-- The largest finite number. -/
def Bound.largest : Bound where
  mantissa := 2 ^ 53 - 1
  exponent := 971

/-- Half the largest finite number. -/
def Bound.halfLargest : Bound where
  mantissa := 2 ^ 53 - 1
  exponent := 970

/-- The largest finite number but one. -/
def Bound.belowLargest : Bound where
  mantissa := 2 ^ 53 - 2
  exponent := 971

/-- A quarter of what comes after the largest finite number: two to the power of 1022. -/
def Bound.quarter : Bound where
  mantissa := 2 ^ 52
  exponent := 970

/-- One. -/
def Bound.one : Bound where
  mantissa := 2 ^ 52
  exponent := -52

/-- An unpacked number is finite, its exponent is one that binary64 has, and its absolute value is
within a bound. -/
inductive Within (b : Bound) : UnpackedFloat → Prop
  | zero (sign : Sign) : Within b (.zero sign)
  | finite (sign : Sign) {mantissa : Nat} {exponent : Int} (hpos : 0 < mantissa)
      (hleast : -1074 ≤ exponent) (hgreatest : exponent ≤ 971)
      (hvalue : (mantissa : ℚ) * 2 ^ exponent ≤ b.value) :
      Within b (.finite sign mantissa exponent hpos)

/-- **A finite number whose absolute value is within a bound.** -/
def AtMost (b : Bound) (x : Float) : Prop := Within b x.toModel.unpack

theorem Within.isFinite {b : Bound} {x : UnpackedFloat} (hx : Within b x) : x.isFinite = true := by
  cases hx <;> rfl

theorem AtMost.isFinite {b : Bound} {x : Float} (hx : AtMost b x) : x.isFinite = true :=
  Within.isFinite hx

theorem Bound.value_nonneg (b : Bound) : 0 ≤ b.value := by
  unfold Bound.value
  positivity

/-! ## Powers of two -/

/-- A multiple of a power of two, written with a smaller power. -/
theorem mul_zpow_eq {e t : Int} (h : e ≤ t) (n : Nat) :
    (n : ℚ) * 2 ^ t = ((n * 2 ^ (t - e).toNat : Nat) : ℚ) * 2 ^ e := by
  have ht : t = ((t - e).toNat : Int) + e := by omega
  rw [Nat.cast_mul, Nat.cast_pow, Nat.cast_ofNat, mul_assoc, ← zpow_natCast,
    ← zpow_add₀ two_ne_zero, ← ht]

/-- Multiples of the same power of two compare as their factors do. -/
theorem mul_zpow_le_iff {e : Int} {m n : Nat} :
    (m : ℚ) * 2 ^ e ≤ (n : ℚ) * 2 ^ e ↔ m ≤ n := by
  rw [mul_le_mul_iff_left₀ (by positivity), Nat.cast_le]

/-- A larger mantissa and a larger exponent make a number larger. -/
theorem mul_zpow_mono {m n : Nat} {e t : Int} (hm : m ≤ n) (he : e ≤ t) :
    (m : ℚ) * 2 ^ e ≤ n * 2 ^ t := by
  gcongr
  exact one_le_two

/-! ## Rounding keeps to a bound -/

/-- The least mantissa that is not below one that is continued by a round bit and a sticky bit. -/
def ceil (em : ExtendedMantissa) : Nat := em.mantissa + (em.roundBit || em.stickyBit).toNat

theorem mantissa_le_ceil (em : ExtendedMantissa) : em.mantissa ≤ ceil em := Nat.le_add_right ..

theorem roundedMantissa_le_ceil (em : ExtendedMantissa) : em.roundedMantissa ≤ ceil em := by
  obtain ⟨m, roundBit, stickyBit⟩ := em
  cases roundBit <;> cases stickyBit <;>
    simp [ceil, ExtendedMantissa.roundedMantissa, ExtendedMantissa.accuracy,
      Accuracy.roundToNearestEven]
  omega

theorem ceil_exact (m : Nat) : ceil (.ofMantissaAndAccuracy m .exact) = m := rfl

/-- Shifting out a bit halves, and what is shifted out is rounded up. -/
theorem ceil_shiftRightOne_le {em : ExtendedMantissa} {n : Nat} (h : ceil em ≤ 2 * n) :
    ceil em.shiftRightOne ≤ n := by
  obtain ⟨m, roundBit, stickyBit⟩ := em
  simp only [ceil, ExtendedMantissa.shiftRightOne] at h ⊢
  rcases Nat.mod_two_eq_zero_or_one m with hm | hm
  · cases roundBit <;> cases stickyBit <;> simp [hm] at h ⊢ <;> omega
  · cases roundBit <;> cases stickyBit <;> simp [hm] at h ⊢ <;> omega

theorem ceil_shiftRight_le {em : ExtendedMantissa} {n : Nat} (k : Nat) (h : ceil em ≤ n * 2 ^ k) :
    ceil (em >>> k) ≤ n := by
  induction k generalizing n with
  | zero => exact h.trans_eq (Nat.mul_one n)
  | succ k ih =>
    refine ceil_shiftRightOne_le (ih ?_)
    rwa [Nat.mul_comm 2 n, Nat.mul_assoc, ← Nat.pow_succ']

/-- The exponent that rounding aims at: 53 bits below the leading one, but not below the least. -/
theorem targetExponent_eq (e : Int) :
    Format.binary64.targetExponent e = max (e - 53) (-1074) := rfl

variable {b : Bound}

/-- The exponent that rounding aims at, for a number within a bound, is not above that of the
bound. -/
theorem targetExponent_le {m : Nat} {e : Int} (hm : 0 < m) (h : (m : ℚ) * 2 ^ e ≤ b.value) :
    Format.binary64.targetExponent (totalExponent m e) ≤ b.exponent := by
  have hpower : (2 : ℚ) ^ ((m.log2 : Int) + e) < 2 ^ (53 + b.exponent) := by
    have hlow : ((2 ^ m.log2 : Nat) : ℚ) ≤ m := Nat.cast_le.2 (Nat.log2_self_le hm.ne')
    have hhigh : (b.mantissa : ℚ) < (2 ^ 53 : Nat) := Nat.cast_lt.2 b.mantissa_lt
    calc (2 : ℚ) ^ ((m.log2 : Int) + e)
        = ((2 ^ m.log2 : Nat) : ℚ) * 2 ^ e := by
          rw [zpow_add₀ two_ne_zero, zpow_natCast, Nat.cast_pow, Nat.cast_ofNat]
      _ ≤ m * 2 ^ e := mul_le_mul_of_nonneg_right hlow (by positivity)
      _ ≤ b.mantissa * 2 ^ b.exponent := h
      _ < ((2 ^ 53 : Nat) : ℚ) * 2 ^ b.exponent :=
          mul_lt_mul_of_pos_right hhigh (by positivity)
      _ = 2 ^ (53 + b.exponent) := by
          rw [zpow_add₀ two_ne_zero, Nat.cast_pow, Nat.cast_ofNat]
          rfl
  have hexponent := (zpow_lt_zpow_iff_right₀ one_lt_two).1 hpower
  have hleast := b.least_le
  rw [targetExponent_eq, totalExponent]
  omega

/-- Shifting to the exponent that rounding aims at keeps a number within a bound, even with all that
is shifted out rounded up. -/
theorem shiftToTargetExponent_within {m : Nat} {e : Int} {accuracy : Accuracy}
    (he : e ≤ b.exponent)
    (h : (ceil (.ofMantissaAndAccuracy m accuracy) : ℚ) * 2 ^ e ≤ b.value) :
    let shifted := shiftToTargetExponent Format.binary64 m e accuracy
    shifted.2 ≤ b.exponent ∧ -1074 ≤ shifted.2 ∧
      (ceil shifted.1 : ℚ) * 2 ^ shifted.2 ≤ b.value := by
  have hleast : -1074 ≤ Format.binary64.targetExponent (totalExponent m e) := le_max_right _ _
  have htarget : Format.binary64.targetExponent (totalExponent m e) ≤ b.exponent := by
    rcases Nat.eq_zero_or_pos m with rfl | hm
    · have := b.least_le
      rw [targetExponent_eq, totalExponent, Nat.log2_zero]
      omega
    · refine targetExponent_le hm (le_trans ?_ h)
      have hfloor : m ≤ ceil (.ofMantissaAndAccuracy m accuracy) := by
        refine le_of_eq_of_le ?_ (mantissa_le_ceil _)
        rcases accuracy with _ | _ | _ | _ <;> rfl
      exact mul_zpow_le_iff.2 hfloor
  simp only [shiftToTargetExponent, shiftToExponent]
  generalize Format.binary64.targetExponent (totalExponent m e) = target at *
  have ht : e + (target - e).toNat ≤ b.exponent := by omega
  refine ⟨ht, by omega, ?_⟩
  -- at the new exponent the bound is a whole number, which rounding up does not pass
  have hceil : ceil (.ofMantissaAndAccuracy m accuracy) ≤
      b.mantissa * 2 ^ (b.exponent - (e + (target - e).toNat)).toNat * 2 ^ (target - e).toNat := by
    rw [Bound.value, mul_zpow_eq he, mul_zpow_le_iff] at h
    rw [Nat.mul_assoc, ← Nat.pow_add]
    convert h using 3
    omega
  rw [Bound.value, mul_zpow_eq ht, mul_zpow_le_iff]
  exact ceil_shiftRight_le _ hceil

/-- **Rounding keeps to a bound.** -/
theorem within_roundWithAccuracy (sign : Sign) {m : Nat} {e : Int} {accuracy : Accuracy}
    (he : e ≤ b.exponent)
    (h : (ceil (.ofMantissaAndAccuracy m accuracy) : ℚ) * 2 ^ e ≤ b.value) :
    Within b (roundWithAccuracy Format.binary64 sign m e accuracy) := by
  obtain ⟨he₁, -, h₁⟩ := shiftToTargetExponent_within he h
  unfold roundWithAccuracy
  generalize shiftToTargetExponent Format.binary64 m e accuracy = first at *
  -- a carry out of the mantissa is shifted out once more
  have hrounded : (ceil (.ofMantissaAndAccuracy first.1.roundedMantissa .exact) : ℚ) *
      2 ^ first.2 ≤ b.value := (mul_zpow_le_iff.2 (roundedMantissa_le_ceil first.1)).trans h₁
  obtain ⟨he₂, hleast, h₂⟩ := shiftToTargetExponent_within he₁ hrounded
  dsimp only
  generalize shiftToTargetExponent Format.binary64 first.1.roundedMantissa first.2 .exact =
    second at *
  by_cases hzero : second.1.mantissa = 0
  · rw [dif_pos hzero]
    exact .zero sign
  · rw [dif_neg hzero]
    exact .finite sign _ hleast (he₂.trans b.le_greatest)
      ((mul_zpow_le_iff.2 (mantissa_le_ceil second.1)).trans h₂)

/-- Rounding an exact number keeps to a bound. -/
theorem within_round (sign : Sign) {m : Nat} {e : Int} (hm : 0 < m)
    (h : (m : ℚ) * 2 ^ e ≤ b.value) : Within b (UnpackedFloat.round Format.binary64 sign m e) := by
  have htarget := targetExponent_le hm h
  unfold UnpackedFloat.round decreaseExponent
  dsimp only
  generalize Format.binary64.targetExponent (totalExponent m e) = target at *
  refine within_roundWithAccuracy sign (by omega) ?_
  rw [ceil_exact, Nat.shiftLeft_eq]
  refine le_of_eq_of_le ?_ h
  rw [mul_zpow_eq (show e - (e - target).toNat ≤ e by omega)]
  congr 4
  omega

/-- A whole number of units is rounded to within a bound. -/
theorem within_normalize {m : Int} {e : Int} (zeroSign : Sign)
    (h : (m.natAbs : ℚ) * 2 ^ e ≤ b.value) :
    Within b (UnpackedFloat.normalize Format.binary64 m e zeroSign) := by
  unfold UnpackedFloat.normalize
  split
  · rename_i hm
    rw [Int.compare_eq_lt] at hm
    refine within_round _ (by omega) ?_
    rwa [show (-m).toNat = m.natAbs by omega]
  · exact .zero zeroSign
  · rename_i hm
    rw [Int.compare_eq_gt] at hm
    refine within_round _ (by omega) ?_
    rwa [show m.toNat = m.natAbs by omega]

/-! ## Storing -/

/-- A mantissa with its leading bit put before it. -/
theorem toNat_leading_append (m : BitVec 52) : (1#1 ++ m).toNat = 2 ^ 52 + m.toNat := by
  rw [BitVec.toNat_append, ← Nat.shiftLeft_add_eq_or_of_lt m.isLt]
  rfl

variable {v : BitVec 64} {exponent : BitVec 11} {mantissa : BitVec 52}

/-- The largest exponent is that of no finite number. -/
theorem unpackExponent_ne (h : (UnpackedFloat.unpack Format.binary64 v).isFinite = true) :
    @unpackExponent Format.binary64 v ≠ -1#11 := by
  intro hexponent
  revert h
  delta UnpackedFloat.unpack
  dsimp only
  rw [if_pos hexponent]
  split <;> exact Bool.false_ne_true

/-- What is stored with another exponent: the least one goes without a leading bit. -/
theorem unpack_cases {P : UnpackedFloat → Prop}
    (hexponent : @unpackExponent Format.binary64 v = exponent)
    (hmantissa : @unpackMantissa Format.binary64 v = mantissa) (hne : exponent ≠ -1#11)
    (zero : ∀ sign, P (.zero sign))
    (subnormal : exponent = 0#11 → ∀ e : Int, e = -1074 →
      ∀ sign hpos, P (.finite sign mantissa.toNat e hpos))
    (normal : exponent ≠ 0#11 → ∀ (m : Nat) (e : Int), -1074 ≤ e → e ≤ 971 →
      m = 2 ^ 52 + mantissa.toNat → e = exponent.toNat - 1075 →
        ∀ sign hpos, P (.finite sign m e hpos)) :
    P (UnpackedFloat.unpack Format.binary64 v) := by
  subst hexponent hmantissa
  have hlt : (@unpackExponent Format.binary64 v).toNat < 2 ^ 11 := BitVec.isLt _
  delta UnpackedFloat.unpack
  dsimp only
  rw [if_neg hne]
  by_cases hzero : @unpackExponent Format.binary64 v = 0#11
  · rw [if_pos hzero]
    by_cases hnone : @unpackMantissa Format.binary64 v = 0#52
    · rw [dif_pos hnone]
      exact zero _
    · rw [dif_neg hnone]
      refine subnormal hzero _ ?_ _ _
      rw [hzero]
      rfl
  · have hpos : (@unpackExponent Format.binary64 v).toNat ≠ 0 :=
      fun h => hzero (BitVec.eq_of_toNat_eq h)
    have hmax : (@unpackExponent Format.binary64 v).toNat ≠ 2047 :=
      fun h => hne (BitVec.eq_of_toNat_eq h)
    have hbias : ((Format.binary64.exponentBias : Int) + (52 : Nat)) = 1075 := rfl
    rw [if_neg hzero, hbias]
    exact normal hzero _ _ (by omega) (by omega) (toNat_leading_append _) rfl _ _

/-- An unpacked number is finite with a mantissa of at most 53 bits and an exponent in range. -/
inductive Stored : UnpackedFloat → Prop
  | zero (sign : Sign) : Stored (.zero sign)
  | finite (sign : Sign) {mantissa : Nat} {exponent : Int} (hpos : 0 < mantissa)
      (hmantissa : mantissa < 2 ^ 53) (hleast : -1074 ≤ exponent) (hgreatest : exponent ≤ 971) :
      Stored (.finite sign mantissa exponent hpos)

/-- A finite number is stored as one. -/
theorem stored_of_isFinite {x : Float} (hx : x.isFinite = true) : Stored x.toModel.unpack := by
  have hlt : (@unpackMantissa Format.binary64 x.toModel.toBits.toBitVec).toNat < 2 ^ 52 :=
    BitVec.isLt _
  refine unpack_cases rfl rfl (unpackExponent_ne hx) .zero ?_ ?_
  · rintro - e rfl sign hpos
    exact .finite sign hpos (by omega) (by decide) (by decide)
  · intro _ m e hleast hgreatest hm _ sign hpos
    exact .finite sign hpos (by omega) hleast hgreatest

theorem Stored.within_largest {u : UnpackedFloat} (hu : Stored u) : Within .largest u := by
  cases hu with
  | zero sign => exact .zero sign
  | finite sign hpos hmantissa hleast hgreatest =>
    exact .finite sign hpos hleast hgreatest
      (mul_zpow_mono (Nat.le_pred_of_lt hmantissa) hgreatest)

/-- **A finite number does not exceed the largest one.** -/
theorem atMost_largest {x : Float} (hx : x.isFinite = true) : AtMost .largest x :=
  (stored_of_isFinite hx).within_largest

/-- How a finite number is stored. -/
theorem pack_finite (sign : Sign) {m : Nat} (e : Int) (hpos : 0 < m) :
    UnpackedFloat.pack Format.binary64 (.finite sign m e hpos) =
      if 2 ^ 11 ≤ (e + 1023 + 52).toNat + 1 then packedInfinity _ sign
      else if m.log2 + 1 = 53 then
        packComponents _ sign (BitVec.ofNat 11 (e + 1023 + 52).toNat) (BitVec.ofNat 52 m)
      else packComponents _ sign 0#11 (BitVec.ofNat 52 m) := rfl

/-- A number that fits is stored as it is, or with a smaller absolute value. -/
theorem Within.unpack_pack {u : UnpackedFloat} (hu : Within b u) :
    Within b (Float.Model.pack u).unpack := by
  cases hu with
  | zero sign => cases sign <;> exact .zero _
  | @finite sign m e hpos hleast hgreatest hvalue =>
    show Within b (UnpackedFloat.unpack _ (UnpackedFloat.pack _ _))
    rw [pack_finite, if_neg (by omega)]
    split
    · -- the leading bit is left out and put back
      rename_i hlog
      obtain ⟨hlow, hhigh⟩ := (Nat.log2_eq_iff hpos.ne').1 (Nat.succ.inj hlog)
      generalize hbiased : (e + 1023 + 52).toNat = biased
      have hexponent : (BitVec.ofNat 11 biased).toNat = biased := Nat.mod_eq_of_lt (by omega)
      have hmantissa : 2 ^ 52 + (BitVec.ofNat 52 m).toNat = m := by
        rw [BitVec.toNat_ofNat]
        omega
      have hne : ∀ n : BitVec 11, biased ≠ n.toNat → BitVec.ofNat 11 biased ≠ n := by
        rintro n hn rfl
        exact hn hexponent.symm
      refine unpack_cases unpackExponent_packComponents unpackMantissa_packComponents
        (hne _ ?_) .zero (fun h => absurd h (hne _ ?_)) ?_
      · show biased ≠ 2047
        omega
      · show biased ≠ 0
        omega
      · rintro - n t htleast htgreatest hn ht sign hpos
        refine .finite sign hpos htleast htgreatest ?_
        rw [hmantissa] at hn
        rw [hexponent] at ht
        obtain rfl : t = e := by omega
        rwa [hn]
    · refine unpack_cases unpackExponent_packComponents unpackMantissa_packComponents
        (by decide) .zero ?_ (fun h => absurd rfl h)
      rintro - t rfl sign hpos
      exact .finite sign hpos le_rfl (by decide)
        ((mul_zpow_mono (Nat.mod_le _ _) hleast).trans hvalue)

/-! ## Sums and differences -/

/-- The absolute value of a signed sum. -/
theorem natAbs_apply_add_le (sign₁ sign₂ : Sign) (m n : Nat) :
    (sign₁.apply m + sign₂.apply n).natAbs ≤ m + n := by
  cases sign₁ <;> cases sign₂ <;> simp only [Sign.apply] <;> omega

/-- A sum keeps to a bound that the bounds of its operands leave room for. -/
theorem Within.add {a c : Bound} {x y : UnpackedFloat} (hx : Within a x) (hy : Within b y)
    (h : a.value + b.value ≤ c.value) : Within c (UnpackedFloat.add Format.binary64 x y) := by
  have ha := a.value_nonneg
  have hb := b.value_nonneg
  cases hx with
  | zero sign₁ =>
    cases hy with
    | zero sign₂ => cases sign₁ <;> cases sign₂ <;> exact .zero _
    | finite sign₂ hpos hleast hgreatest hvalue =>
      exact .finite sign₂ hpos hleast hgreatest (by linarith)
  | @finite sign₁ m₁ e₁ hpos₁ hleast₁ hgreatest₁ hvalue₁ =>
    cases hy with
    | zero sign₂ => exact .finite sign₁ hpos₁ hleast₁ hgreatest₁ (by linarith)
    | @finite sign₂ m₂ e₂ hpos₂ hleast₂ hgreatest₂ hvalue₂ =>
      -- both mantissas are shifted to the smaller exponent
      refine within_normalize .positive ?_
      rw [mul_zpow_eq (min_le_left e₁ e₂)] at hvalue₁
      rw [mul_zpow_eq (min_le_right e₁ e₂)] at hvalue₂
      simp only [Nat.shiftLeft_eq]
      refine (mul_zpow_le_iff.2 (natAbs_apply_add_le sign₁ sign₂ _ _)).trans ?_
      rw [Nat.cast_add, add_mul]
      linarith

/-- A difference is the sum with the negated number. -/
theorem sub_eq_add_neg (spec : Format) (x y : UnpackedFloat) :
    UnpackedFloat.sub spec x y = UnpackedFloat.add spec x (UnpackedFloat.neg y) := by
  cases x with
  | notANumber => rfl
  | infinity sign₁ => cases y <;> rfl
  | zero sign₁ => cases y <;> rfl
  | finite sign₁ m₁ e₁ hpos₁ =>
    cases y with
    | notANumber => rfl
    | infinity sign₂ => rfl
    | zero sign₂ => rfl
    | finite sign₂ m₂ e₂ hpos₂ =>
      cases sign₂ with
      | positive => rfl
      | negative =>
        exact congrArg (fun m => UnpackedFloat.normalize spec m _ .positive) (sub_neg_eq_add _ _)

theorem Within.neg {x : UnpackedFloat} (hx : Within b x) : Within b (UnpackedFloat.neg x) := by
  cases hx with
  | zero sign => exact .zero _
  | finite sign hpos hleast hgreatest hvalue => exact .finite _ hpos hleast hgreatest hvalue

/-- **A sum keeps to a bound that the bounds of its operands leave room for.** -/
theorem AtMost.add {a c : Bound} {x y : Float} (hx : AtMost a x) (hy : AtMost b y)
    (h : a.value + b.value ≤ c.value) : AtMost c (x + y) :=
  (Within.add hx hy h).unpack_pack

/-- **A difference keeps to a bound that the bounds of its operands leave room for.** -/
theorem AtMost.sub {a c : Bound} {x y : Float} (hx : AtMost a x) (hy : AtMost b y)
    (h : a.value + b.value ≤ c.value) : AtMost c (x - y) := by
  refine Within.unpack_pack ?_
  rw [sub_eq_add_neg]
  exact Within.add hx (Within.neg hy) h

/-! ## Halves -/

/-- A quotient with its remainder rounded up does not pass a whole number that the exact quotient
does not pass. -/
theorem ceil_div_le {n d k : Nat} (hd : 0 < d) (h : n ≤ k * d) :
    ceil (.ofMantissaAndAccuracy (n / d) (accuracyOfFraction (n % d) d)) ≤ k := by
  unfold accuracyOfFraction
  split
  · exact Nat.div_le_of_le_mul (h.trans_eq (Nat.mul_comm k d))
  · rename_i hmod
    have hne : n ≠ k * d := by
      rintro rfl
      exact hmod (Nat.mul_mod_left k d)
    have hlt : n / d < k := (Nat.div_lt_iff_lt_mul hd).2 (lt_of_le_of_ne h hne)
    rcases compare (2 * (n % d)) d with _ | _ | _ <;> exact hlt

/-- The number two. -/
theorem unpack_two :
    (Scalar.ofNat 2 : Float).toModel.unpack = .finite .positive (2 ^ 52) (-51) (by decide) := by
  rfl

/-- Half a number keeps to half its bound. -/
theorem Within.half {c : Bound} {x : UnpackedFloat} (hx : Within b x)
    (h : b.value ≤ 2 * c.value) :
    Within c (UnpackedFloat.div Format.binary64 x
      (.finite .positive (2 ^ 52) (-51) (by decide))) := by
  cases hx with
  | zero sign => exact .zero _
  | @finite sign m e hpos hleast hgreatest hvalue =>
    have hhalf : (m : ℚ) * 2 ^ (e - 1) ≤ c.value := by
      rw [zpow_sub_one₀ two_ne_zero]
      linarith
    -- the exponent of the quotient is not above that of the bound
    have htarget : Format.binary64.targetExponent
        (totalExponent m e - totalExponent (2 ^ 52) (-51)) ≤ c.exponent := by
      refine le_trans ?_ (targetExponent_le hpos hhalf)
      rw [targetExponent_eq, targetExponent_eq, totalExponent, totalExponent, totalExponent,
        Nat.log2_two_pow]
      omega
    show Within c (roundWithAccuracy _ _ ((m <<< (e - -51 - min _ _).toNat) / 2 ^ 52) (min _ _)
      (accuracyOfFraction ((m <<< (e - -51 - min _ _).toNat) % 2 ^ 52) (2 ^ 52)))
    generalize Format.binary64.targetExponent _ = target at *
    generalize ht : min (e - -51) target = t
    have hle : t ≤ c.exponent := by omega
    refine within_roundWithAccuracy _ hle ?_
    rw [Bound.value, mul_zpow_eq hle, mul_zpow_le_iff]
    refine ceil_div_le (by decide) ?_
    rw [Bound.value, mul_zpow_eq (show t - 52 ≤ e - 1 by omega),
      mul_zpow_eq (show t - 52 ≤ c.exponent by omega), mul_zpow_le_iff] at hhalf
    rw [Nat.shiftLeft_eq, Nat.mul_assoc c.mantissa, ← Nat.pow_add]
    convert hhalf using 3
    · omega
    · omega

/-- **Half a number keeps to half its bound.** -/
theorem AtMost.half {c : Bound} {x : Float} (hx : AtMost b x) (h : b.value ≤ 2 * c.value) :
    AtMost c (x / Scalar.ofNat 2) := by
  refine Within.unpack_pack ?_
  rw [unpack_two]
  exact Within.half hx h

/-! ## Finite results -/

/-- What is stored as a finite number is one. -/
theorem isFinite_of_pack {u : UnpackedFloat} (h : (Float.Model.pack u).isFinite = true) :
    u.isFinite = true := by
  cases u with
  | notANumber => exact h
  | infinity sign => cases sign <;> exact h
  | zero sign => rfl
  | finite sign m e hpos => rfl

/-- A finite sum has finite summands. -/
theorem unpacked_isFinite_of_add {spec : Format} {x y : UnpackedFloat}
    (h : (UnpackedFloat.add spec x y).isFinite = true) :
    x.isFinite = true ∧ y.isFinite = true := by
  cases x with
  | notANumber => cases h
  | infinity sign₁ =>
    cases y with
    | infinity sign₂ => cases sign₁ <;> cases sign₂ <;> cases h
    | notANumber => cases h
    | zero sign₂ => cases h
    | finite sign₂ m₂ e₂ hpos₂ => cases h
  | zero sign₁ => cases y <;> first | exact ⟨rfl, rfl⟩ | cases h
  | finite sign₁ m₁ e₁ hpos₁ => cases y <;> first | exact ⟨rfl, rfl⟩ | cases h

/-- **A finite sum has finite summands.** -/
theorem isFinite_of_add {x y : Float} (h : (x + y).isFinite = true) :
    x.isFinite = true ∧ y.isFinite = true := unpacked_isFinite_of_add (isFinite_of_pack h)

/-- **A finite difference is one of finite numbers.** -/
theorem isFinite_of_sub {x y : Float} (h : (x - y).isFinite = true) :
    x.isFinite = true ∧ y.isFinite = true := by
  have h := isFinite_of_pack h
  rw [sub_eq_add_neg] at h
  obtain ⟨hx, hy⟩ := unpacked_isFinite_of_add h
  refine ⟨hx, ?_⟩
  show y.toModel.unpack.isFinite = true
  revert hy
  cases y.toModel.unpack <;> exact id

/-- **A finite quotient has a finite dividend.** -/
theorem isFinite_of_div {x y : Float} (h : (x / y).isFinite = true) : x.isFinite = true := by
  have h := isFinite_of_pack h
  show x.toModel.unpack.isFinite = true
  revert h
  cases x.toModel.unpack with
  | notANumber => exact id
  | infinity sign => cases y.toModel.unpack <;> exact id
  | zero sign => exact fun _ => rfl
  | finite sign m e hpos => exact fun _ => rfl

/-! ## One more and one less -/

/-- One is as large as it is. -/
theorem atMost_one : AtMost .one (Scalar.ofNat 1) :=
  Within.finite .positive (by decide) (by decide) (by decide) le_rfl

/-- A finite number is the largest one up to its sign, or within the largest one but one. -/
theorem Stored.belowLargest_or {u : UnpackedFloat} (hu : Stored u) :
    Within .belowLargest u ∨ ∃ sign, u = .finite sign (2 ^ 53 - 1) 971 (by decide) := by
  cases hu with
  | zero sign => exact .inl (.zero sign)
  | @finite sign m e hpos hmantissa hleast hgreatest =>
    by_cases hlargest : m = 2 ^ 53 - 1 ∧ e = 971
    · obtain ⟨rfl, rfl⟩ := hlargest
      exact .inr ⟨sign, rfl⟩
    · refine .inl (.finite sign hpos hleast hgreatest ?_)
      by_cases hm : m = 2 ^ 53 - 1
      · -- the exponent is smaller, which halves the number
        have he : e ≤ 970 := by omega
        refine (mul_zpow_mono hm.le he).trans ?_
        rw [Bound.value, mul_zpow_eq (show (970 : Int) ≤ Bound.belowLargest.exponent by decide),
          mul_zpow_le_iff]
        decide
      · exact mul_zpow_mono (show m ≤ 2 ^ 53 - 2 by omega) hgreatest

theorem Bound.value_one : Bound.one.value = 1 := by
  norm_num [Bound.value, Bound.one]

/-- A larger mantissa leaves room for one more, unless its unit is a fraction. -/
theorem Bound.value_add_one_le {b c : Bound} (hexponent : b.exponent = c.exponent)
    (hmantissa : b.mantissa < c.mantissa) (hwhole : 0 ≤ c.exponent) :
    b.value + Bound.one.value ≤ c.value := by
  have hunit : (1 : ℚ) ≤ 2 ^ c.exponent := one_le_zpow₀ one_le_two hwhole
  have hnext := mul_zpow_mono (Nat.succ_le_of_lt hmantissa) (le_refl c.exponent)
  rw [Nat.cast_succ, add_one_mul] at hnext
  rw [value_one, Bound.value, Bound.value, hexponent]
  linarith

/-- Below the largest number there is room for one more. -/
theorem belowLargest_add_one_le :
    Bound.belowLargest.value + Bound.one.value ≤ Bound.largest.value :=
  Bound.value_add_one_le rfl (by decide) (by decide)

/-- Below half the largest number there is room for one more than a quarter. -/
theorem quarter_add_one_le :
    Bound.quarter.value + Bound.one.value ≤ Bound.halfLargest.value :=
  Bound.value_add_one_le rfl (by decide) (by decide)

/-- **One more than a finite number is finite**: next to the largest number, one is nothing. -/
theorem isFinite_add_one {x : Float} (hx : x.isFinite = true) :
    (x + Scalar.ofNat 1).isFinite = true := by
  rcases (stored_of_isFinite hx).belowLargest_or with hbelow | ⟨sign, h⟩
  · exact (AtMost.add hbelow atMost_one belowLargest_add_one_le).isFinite
  · show (Float.Model.pack (UnpackedFloat.add Format.binary64 x.toModel.unpack _)).isFinite = true
    rw [h]
    cases sign <;> decide +kernel

/-- **One less than a finite number is finite.** -/
theorem isFinite_sub_one {x : Float} (hx : x.isFinite = true) :
    (x - Scalar.ofNat 1).isFinite = true := by
  rcases (stored_of_isFinite hx).belowLargest_or with hbelow | ⟨sign, h⟩
  · exact (AtMost.sub hbelow atMost_one belowLargest_add_one_le).isFinite
  · show (Float.Model.pack (UnpackedFloat.sub Format.binary64 x.toModel.unpack _)).isFinite = true
    rw [h]
    cases sign <;> decide +kernel

/-! ## Half a sum and half a length -/

/-- The largest number is twice its half. -/
theorem largest_eq_two_mul : Bound.largest.value = 2 * Bound.halfLargest.value := by
  have hmantissa :
      ((Bound.largest.mantissa * 2 ^ (Bound.largest.exponent - 970).toNat : Nat) : ℚ) =
        2 * Bound.halfLargest.mantissa := by
    rw [Nat.cast_mul, mul_comm]
    rfl
  rw [Bound.value, mul_zpow_eq (show (970 : Int) ≤ Bound.largest.exponent by decide), hmantissa,
    mul_assoc]
  rfl

theorem halfLargest_add_halfLargest_le :
    Bound.halfLargest.value + Bound.halfLargest.value ≤ Bound.largest.value := by
  rw [largest_eq_two_mul, two_mul]

/-- Half a finite number is at most half the largest one. -/
theorem atMost_half {x : Float} (hx : x.isFinite = true) :
    AtMost .halfLargest (x / Scalar.ofNat 2) :=
  (atMost_largest hx).half largest_eq_two_mul.le

/-- **What lies half a length beside half a sum is finite exactly if both the sum and the length
are.** -/
theorem isFinite_beside_iff (sum length : Float) :
    ((sum / Scalar.ofNat 2 - length / Scalar.ofNat 2).isFinite = true ↔
        sum.isFinite = true ∧ length.isFinite = true) ∧
      ((sum / Scalar.ofNat 2 + length / Scalar.ofNat 2).isFinite = true ↔
        sum.isFinite = true ∧ length.isFinite = true) := by
  have hfit := halfLargest_add_halfLargest_le
  constructor
  · constructor
    · intro h
      obtain ⟨hsum, hlength⟩ := isFinite_of_sub h
      exact ⟨isFinite_of_div hsum, isFinite_of_div hlength⟩
    · rintro ⟨hsum, hlength⟩
      exact ((atMost_half hsum).sub (atMost_half hlength) hfit).isFinite
  · constructor
    · intro h
      obtain ⟨hsum, hlength⟩ := isFinite_of_add h
      exact ⟨isFinite_of_div hsum, isFinite_of_div hlength⟩
    · rintro ⟨hsum, hlength⟩
      exact ((atMost_half hsum).add (atMost_half hlength) hfit).isFinite

end Straightedge.Binary64
