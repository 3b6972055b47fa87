import Mathlib.Tactic.Positivity
import Mathlib.Tactic.Ring
import Straightedge.Plane.Tolerance
import Straightedge.Proofs.Plane.Rounding

/-! # Errors of binary64 arithmetic

An operation on binary64 numbers gives the exact result, moved by at most one unit in its last
place. Within a bound that is a binary64 number itself, no unit is larger than that of the bound, so
a bound on the exact result is a bound on the error.

* **`Binary64.value`**: the rational number that a binary64 number stands for.
* **`Binary64.Canonical`**, **`Binary64.unpack_pack`**: numbers that are stored as they are.
* **`Binary64.error_roundWithAccuracy`**, **`Binary64.error_normalize`**: the error of rounding.
* **`Binary64.Rounds`**: a number that is an exact one within a bound, rounded.
* **`Binary64.rounds_add`**, **`Binary64.rounds_sub`**, **`Binary64.rounds_mul`**: the error of an
  operation. -/

namespace Straightedge.Binary64

open Float.Model (Format UnpackedFloat totalExponent)
open Float.Model.UnpackedFloat

/-! ## Values -/

/-- The number that an unpacked number stands for, and zero for what is not finite. -/
def unpackedValue : UnpackedFloat → ℚ
  | .finite sign m e _ => (sign.apply m : ℤ) * 2 ^ e
  | _ => 0

theorem unpackedValue_finite (sign : Sign) {m : Nat} (e : Int) (hpos : 0 < m) :
    unpackedValue (.finite sign m e hpos) = (sign.apply m : ℤ) * 2 ^ e := rfl

/-- **The number that a binary64 number stands for.** -/
def value (x : Float) : ℚ := unpackedValue x.toModel.unpack

theorem cast_apply (sign : Sign) (m : Nat) :
    ((sign.apply m : ℤ) : ℚ) = (sign.apply 1 : ℤ) * m := by
  cases sign <;> simp [Sign.apply]

theorem abs_apply_one (sign : Sign) : |((sign.apply 1 : ℤ) : ℚ)| = 1 := by
  cases sign <;> simp [Sign.apply]

/-- The sign of two numbers does not matter for their distance. -/
theorem abs_apply_sub (sign : Sign) (m n : Nat) (e t : Int) :
    |((sign.apply m : ℤ) : ℚ) * 2 ^ e - (sign.apply n : ℤ) * 2 ^ t| =
      |(m : ℚ) * 2 ^ e - n * 2 ^ t| := by
  rw [cast_apply, cast_apply sign n, mul_assoc, mul_assoc, ← mul_sub, abs_mul, abs_apply_one,
    one_mul]

/-- A finite number keeps to a bound exactly if its value does. -/
theorem abs_unpackedValue_le {b : Bound} {u : UnpackedFloat} (hu : Within b u) :
    |unpackedValue u| ≤ b.value := by
  cases hu with
  | zero sign => exact abs_zero.trans_le b.value_nonneg
  | finite sign hpos hleast hgreatest hvalue =>
    rwa [unpackedValue_finite, cast_apply, abs_mul, abs_mul, abs_apply_one, one_mul, Nat.abs_cast,
      abs_of_pos (by positivity)]

theorem AtMost.abs_value_le {b : Bound} {x : Float} (hx : AtMost b x) : |value x| ≤ b.value :=
  abs_unpackedValue_le hx

theorem unpackedValue_neg (u : UnpackedFloat) :
    unpackedValue (UnpackedFloat.neg u) = -unpackedValue u := by
  cases u with
  | finite sign m e hpos =>
    have hsign : (-sign).apply m = -sign.apply m := by
      cases sign
      · exact (neg_neg _).symm
      · rfl
    show (((-sign).apply m : ℤ) : ℚ) * 2 ^ e = -(((sign.apply m : ℤ) : ℚ) * 2 ^ e)
    rw [hsign, Int.cast_neg, neg_mul]
  | _ => exact neg_zero.symm

/-- A power of two as a bound. -/
def Bound.power (k : Int) (hleast : -1022 ≤ k := by decide) (hgreatest : k ≤ 1023 := by decide) :
    Bound where
  mantissa := 2 ^ 52
  exponent := k - 52
  mantissa_lt := Bound.one.mantissa_lt
  least_le := by omega
  le_greatest := by omega

theorem Bound.value_power {k : Int} (hleast : -1022 ≤ k) (hgreatest : k ≤ 1023) :
    (Bound.power k hleast hgreatest).value = 2 ^ k := by
  show ((2 ^ 52 : Nat) : ℚ) * 2 ^ (k - 52) = 2 ^ k
  rw [Nat.cast_pow, ← zpow_natCast, Nat.cast_ofNat, ← zpow_add₀ two_ne_zero]
  congr 1
  omega

/-- What keeps to a bound keeps to a larger one. -/
theorem Within.mono {a b : Bound} {u : UnpackedFloat} (hu : Within a u) (h : a.value ≤ b.value) :
    Within b u := by
  cases hu with
  | zero sign => exact .zero sign
  | finite sign hpos hleast hgreatest hvalue =>
    exact .finite sign hpos hleast hgreatest (hvalue.trans h)

/-! ## Canonical numbers -/

/-- A finite number has a mantissa of at most 53 bits, and of no fewer unless its exponent is the
least. -/
inductive Canonical : UnpackedFloat → Prop
  | zero (sign : Sign) : Canonical (.zero sign)
  | finite (sign : Sign) {mantissa : Nat} {exponent : Int} (hpos : 0 < mantissa)
      (hmantissa : mantissa < 2 ^ 53) (hleast : -1074 ≤ exponent)
      (hleading : 2 ^ 52 ≤ mantissa ∨ exponent = -1074) :
      Canonical (.finite sign mantissa exponent hpos)

/-- A finite number is canonical. -/
theorem canonical_of_isFinite {x : Float} (hx : x.isFinite = true) :
    Canonical x.toModel.unpack := by
  have hlt : (@unpackMantissa Format.binary64 x.toModel.toBits.toBitVec).toNat < 2 ^ 52 :=
    BitVec.isLt _
  refine unpack_cases rfl rfl (unpackExponent_ne hx) .zero ?_ ?_
  · rintro - e rfl sign hpos
    exact .finite sign hpos (by omega) le_rfl (.inr rfl)
  · intro _ m e hleast _ hm _ sign hpos
    exact .finite sign hpos (by omega) hleast (.inl (by omega))

theorem Canonical.neg {u : UnpackedFloat} (hu : Canonical u) : Canonical (UnpackedFloat.neg u) := by
  cases hu with
  | zero sign => exact .zero _
  | finite sign hpos hmantissa hleast hleading => exact .finite _ hpos hmantissa hleast hleading

/-- The sign is stored as it is. -/
theorem ofBitVec_unpackSign (sign : Sign) (exponent : BitVec 11) (mantissa : BitVec 52) :
    Sign.ofBitVec (@unpackSign Format.binary64
      (packComponents Format.binary64 sign exponent mantissa)) = sign := by
  have hsign : @unpackSign Format.binary64 (packComponents Format.binary64 sign exponent mantissa) =
      sign.toBitVec := by
    show (sign.toBitVec ++ exponent ++ mantissa).extractLsb' 63 1 = sign.toBitVec
    rw [BitVec.extractLsb'_append_eq_of_le (by decide),
      BitVec.extractLsb'_append_eq_of_le (by decide)]
    cases sign <;> rfl
  rw [hsign]
  cases sign <;> rfl

theorem finite_congr (sign : Sign) {m n : Nat} {e t : Int} (hm : m = n) (he : e = t) (hpos : 0 < m)
    (hpos' : 0 < n) : UnpackedFloat.finite sign m e hpos = .finite sign n t hpos' := by
  subst hm he
  rfl

section

variable {v : BitVec 64} {sign : Sign} {exponent : BitVec 11} {mantissa : BitVec 52} {m : Nat}
  {e : Int}

/-- What is stored with an exponent that is not the least one has a leading bit. -/
theorem unpack_normal (hsign : Sign.ofBitVec (@unpackSign Format.binary64 v) = sign)
    (hexponent : @unpackExponent Format.binary64 v = exponent)
    (hmantissa : @unpackMantissa Format.binary64 v = mantissa) (hne : exponent ≠ -1#11)
    (hzero : exponent ≠ 0#11) (hm : 2 ^ 52 + mantissa.toNat = m)
    (he : (exponent.toNat : Int) - 1075 = e) (hpos : 0 < m) :
    UnpackedFloat.unpack Format.binary64 v = .finite sign m e hpos := by
  subst hsign hexponent hmantissa
  delta UnpackedFloat.unpack
  dsimp only
  rw [if_neg hne, if_neg hzero]
  exact finite_congr _ ((toNat_leading_append _).trans hm) he _ _

/-- What is stored with the least exponent has none. -/
theorem unpack_subnormal (hsign : Sign.ofBitVec (@unpackSign Format.binary64 v) = sign)
    (hexponent : @unpackExponent Format.binary64 v = 0#11)
    (hmantissa : @unpackMantissa Format.binary64 v = mantissa) (hm : mantissa.toNat = m)
    (hpos : 0 < m) : UnpackedFloat.unpack Format.binary64 v = .finite sign m (-1074) hpos := by
  have hne : mantissa ≠ 0#52 := by
    rintro rfl
    exact hpos.ne hm
  subst hsign hmantissa
  delta UnpackedFloat.unpack
  dsimp only
  rw [if_neg (by rw [hexponent]; decide), if_pos hexponent, dif_neg hne]
  refine finite_congr _ hm ?_ _ _
  rw [hexponent]
  rfl

end

/-- **A canonical number that is not too large is stored as it is.** -/
theorem unpack_pack {u : UnpackedFloat} (hu : Canonical u) (hbound : Within .largest u) :
    (Float.Model.pack u).unpack = u := by
  cases hu with
  | zero sign => cases sign <;> rfl
  | @finite sign m e hpos hmantissa hleast hleading =>
    obtain - | ⟨_, _, -, hgreatest, -⟩ := hbound
    show UnpackedFloat.unpack _ (UnpackedFloat.pack _ _) = _
    rw [pack_finite, if_neg (by omega)]
    by_cases hlog : m.log2 + 1 = 53
    · -- the leading bit is left out and put back
      rw [if_pos hlog]
      obtain ⟨hlow, hhigh⟩ := (Nat.log2_eq_iff hpos.ne').1 (Nat.succ.inj hlog)
      have hexponent : (BitVec.ofNat 11 (e + 1023 + 52).toNat).toNat = (e + 1023 + 52).toNat :=
        Nat.mod_eq_of_lt (by omega)
      have hne : ∀ n : BitVec 11, (e + 1023 + 52).toNat ≠ n.toNat →
          BitVec.ofNat 11 (e + 1023 + 52).toNat ≠ n := by
        rintro n hn rfl
        exact hn hexponent.symm
      refine unpack_normal (ofBitVec_unpackSign ..) unpackExponent_packComponents
        unpackMantissa_packComponents (hne _ ?_) (hne _ ?_) ?_ ?_ hpos
      · show (e + 1023 + 52).toNat ≠ 2047
        omega
      · show (e + 1023 + 52).toNat ≠ 0
        omega
      · rw [BitVec.toNat_ofNat]
        omega
      · rw [hexponent]
        omega
    · -- without a leading bit the exponent is the least one
      rw [if_neg hlog]
      have hlow : m < 2 ^ 52 := by
        by_contra hhigh
        exact hlog (congrArg Nat.succ ((Nat.log2_eq_iff hpos.ne').2 ⟨not_lt.1 hhigh, hmantissa⟩))
      obtain rfl : e = -1074 := hleading.resolve_left (not_le.2 hlow)
      have hstored : (BitVec.ofNat 52 m).toNat = m := Nat.mod_eq_of_lt hlow
      exact unpack_subnormal (ofBitVec_unpackSign ..) unpackExponent_packComponents
        unpackMantissa_packComponents hstored hpos

/-! ## The error of rounding -/

/-- Shifting cuts off the bits that are shifted out. -/
theorem mantissa_shiftRight (em : ExtendedMantissa) (k : Nat) :
    (em >>> k).mantissa = em.mantissa / 2 ^ k := by
  induction k with
  | zero => exact (Nat.div_one _).symm
  | succ k ih =>
    show (em >>> k).mantissa / 2 = _
    rw [ih, Nat.div_div_eq_div_mul, Nat.pow_succ]

theorem mantissa_le_roundedMantissa (em : ExtendedMantissa) : em.mantissa ≤ em.roundedMantissa := by
  obtain ⟨m, roundBit, stickyBit⟩ := em
  cases roundBit <;> cases stickyBit <;>
    simp [ExtendedMantissa.roundedMantissa, ExtendedMantissa.accuracy,
      Accuracy.roundToNearestEven]

theorem roundedMantissa_le_succ (em : ExtendedMantissa) : em.roundedMantissa ≤ em.mantissa + 1 := by
  refine (roundedMantissa_le_ceil em).trans (Nat.add_le_add_left (Bool.toNat_le _) _)

/-- A carry out of the mantissa is shifted out without a loss. -/
theorem shift_carry {r : Nat} {t : Int} (hr : r ≤ 2 ^ 53) (ht : -1074 ≤ t)
    (hleading : 2 ^ 52 ≤ r ∨ t = -1074) :
    let shifted := shiftToTargetExponent Format.binary64 r t .exact
    shifted.1.mantissa < 2 ^ 53 ∧ -1074 ≤ shifted.2 ∧
      (2 ^ 52 ≤ shifted.1.mantissa ∨ shifted.2 = -1074) ∧
      (shifted.1.mantissa : ℚ) * 2 ^ shifted.2 = r * 2 ^ t := by
  simp only [shiftToTargetExponent, shiftToExponent, mantissa_shiftRight, targetExponent_eq,
    totalExponent]
  show r / _ < _ ∧ _ ∧ (_ ≤ r / _ ∨ _) ∧ ((r / _ : Nat) : ℚ) * _ = _
  rcases hr.lt_or_eq with hlt | rfl
  · have hlog : r.log2 ≤ 52 := by
      rcases Nat.eq_zero_or_pos r with rfl | hpos
      · decide
      · exact Nat.le_of_lt_succ ((Nat.log2_lt hpos.ne').2 hlt)
    have hnone : (max ((r.log2 : Int) + 1 + t - 53) (-1074) - t).toNat = 0 := by omega
    rw [hnone, Nat.pow_zero, Nat.div_one, Nat.cast_zero, add_zero]
    exact ⟨hlt, ht, hleading, rfl⟩
  · have hone : (max (((2 ^ 53 : Nat).log2 : Int) + 1 + t - 53) (-1074) - t).toNat = 1 := by
      rw [Nat.log2_two_pow]
      omega
    rw [hone]
    refine ⟨by decide, by omega, .inl (by decide), ?_⟩
    rw [Nat.cast_one, zpow_add_one₀ two_ne_zero]
    norm_num
    ring

/-- Rounding to a multiple of a power of two moves a whole number by at most that power. -/
theorem abs_sub_le_of_div {m r k : Nat} (hlow : m / 2 ^ k ≤ r) (hhigh : r ≤ m / 2 ^ k + 1) :
    |(r : ℚ) * 2 ^ k - m| ≤ 2 ^ k := by
  have hbelow : m ≤ r * 2 ^ k + 2 ^ k := by
    rw [← Nat.succ_mul]
    exact (Nat.lt_mul_of_div_lt (Nat.lt_succ_of_le hlow) (Nat.two_pow_pos k)).le
  have habove : r * 2 ^ k ≤ m + 2 ^ k := by
    refine (Nat.mul_le_mul_right (2 ^ k) hhigh).trans ?_
    rw [Nat.succ_mul]
    exact Nat.add_le_add_right (Nat.div_mul_le_self m (2 ^ k)) _
  rw [abs_sub_le_iff]
  constructor
  · rw [sub_le_iff_le_add']
    exact_mod_cast habove
  · rw [sub_le_iff_le_add']
    exact_mod_cast hbelow

variable {m : Nat} {e : Int}

/-- A mantissa that is long enough is rounded to one that may have a bit too many, and is moved by
at most a unit of the exponent that rounding aims at. -/
theorem shift_mantissa (he : e ≤ Format.binary64.targetExponent (totalExponent m e)) (hm : 0 < m) :
    let target := Format.binary64.targetExponent (totalExponent m e)
    let shifted := shiftToTargetExponent Format.binary64 m e .exact
    let r := shifted.1.roundedMantissa
    shifted.2 = target ∧ r ≤ 2 ^ 53 ∧ (2 ^ 52 ≤ r ∨ target = -1074) ∧
      |(r : ℚ) * 2 ^ target - m * 2 ^ e| ≤ 2 ^ target := by
  intro target shifted r
  have htarget : target = max (m.log2 + 1 + e - 53) (-1074) := rfl
  obtain ⟨k, hk⟩ := Int.eq_ofNat_of_zero_le (sub_nonneg.2 he)
  have hshifted : shifted = (ExtendedMantissa.ofMantissaAndAccuracy m .exact >>> k, target) := by
    show (ExtendedMantissa.ofMantissaAndAccuracy m .exact >>> (target - e).toNat,
      e + ((target - e).toNat : Int)) = _
    rw [hk, Int.toNat_natCast, ← hk, add_sub_cancel]
  have hfloor : shifted.1.mantissa = m / 2 ^ k := by
    rw [hshifted, mantissa_shiftRight]
    rfl
  have hlow : m / 2 ^ k ≤ r := hfloor.symm.trans_le (mantissa_le_roundedMantissa _)
  have hhigh : r ≤ m / 2 ^ k + 1 := (roundedMantissa_le_succ _).trans_eq (congrArg (· + 1) hfloor)
  refine ⟨by rw [hshifted], ?_, ?_, ?_⟩
  · -- at most 53 bits are left
    refine hhigh.trans (Nat.succ_le_of_lt ((Nat.div_lt_iff_lt_mul (Nat.two_pow_pos k)).2 ?_))
    rw [← Nat.pow_add]
    exact Nat.lt_log2_self.trans_le (Nat.pow_le_pow_right (by decide) (by omega))
  · by_cases hleast : target = -1074
    · exact .inr hleast
    · refine .inl (le_trans ((Nat.le_div_iff_mul_le (Nat.two_pow_pos k)).2 ?_) hlow)
      rw [← Nat.pow_add, show 52 + k = m.log2 by omega]
      exact Nat.log2_self_le hm.ne'
  · have hunit : (2 : ℚ) ^ target = 2 ^ k * 2 ^ e := by
      rw [← zpow_natCast, ← zpow_add₀ two_ne_zero, ← hk, sub_add_cancel]
    rw [hunit, ← mul_assoc, ← sub_mul, abs_mul, abs_of_pos (by positivity : (0 : ℚ) < 2 ^ e)]
    exact mul_le_mul_of_nonneg_right (abs_sub_le_of_div hlow hhigh) (by positivity)

/-- **Rounding a mantissa that is long enough** gives a canonical number and moves by at most a unit
of the exponent that rounding aims at. -/
theorem error_roundWithAccuracy (sign : Sign) (hm : 0 < m)
    (he : e ≤ Format.binary64.targetExponent (totalExponent m e)) :
    let rounded := roundWithAccuracy Format.binary64 sign m e .exact
    Canonical rounded ∧ |unpackedValue rounded - (sign.apply m : ℤ) * 2 ^ e| ≤
      2 ^ Format.binary64.targetExponent (totalExponent m e) := by
  obtain ⟨hfirst, hr, hleading, herror⟩ := shift_mantissa he hm
  have hleast : -1074 ≤ Format.binary64.targetExponent (totalExponent m e) := le_max_right _ _
  unfold roundWithAccuracy
  generalize Format.binary64.targetExponent (totalExponent m e) = target at *
  generalize shiftToTargetExponent Format.binary64 m e .exact = first at *
  subst hfirst
  obtain ⟨hmantissa, hexponent, hlead, hvalue⟩ := shift_carry hr hleast hleading
  dsimp only
  generalize shiftToTargetExponent Format.binary64 first.1.roundedMantissa first.2 .exact =
    second at *
  by_cases hzero : second.1.mantissa = 0
  · rw [dif_pos hzero]
    refine ⟨.zero sign, ?_⟩
    rw [hzero, Nat.cast_zero, zero_mul] at hvalue
    have hdistance := abs_apply_sub sign 0 m 0 e
    rw [cast_apply, Nat.cast_zero, mul_zero, zero_mul] at hdistance
    rw [← hvalue, ← hdistance] at herror
    exact herror
  · rw [dif_neg hzero]
    refine ⟨.finite sign _ hmantissa hexponent hlead, ?_⟩
    rw [unpackedValue_finite, abs_apply_sub, hvalue]
    exact herror

/-- A shift to the left adds to the position of the leading bit. -/
theorem log2_shiftLeft (hm : 0 < m) (k : Nat) : (m <<< k).log2 = m.log2 + k := by
  have hpower := Nat.two_pow_pos k
  rw [Nat.shiftLeft_eq, Nat.log2_eq_iff (Nat.mul_pos hm hpower).ne', Nat.add_right_comm,
    Nat.pow_add, Nat.pow_add]
  exact ⟨Nat.mul_le_mul_right _ (Nat.log2_self_le hm.ne'),
    Nat.mul_lt_mul_of_pos_right Nat.lt_log2_self hpower⟩

/-- Left shifts make up for smaller exponents. -/
theorem shiftLeft_mul_zpow (m k : Nat) (e : Int) :
    ((m <<< k : Nat) : ℚ) * 2 ^ (e - k) = m * 2 ^ e := by
  rw [Nat.shiftLeft_eq, Nat.cast_mul, Nat.cast_pow, Nat.cast_ofNat, mul_assoc, ← zpow_natCast,
    ← zpow_add₀ two_ne_zero, add_sub_cancel]

theorem apply_shiftLeft_mul_zpow (sign : Sign) (m : Nat) {e t : Int} (h : t ≤ e) :
    ((sign.apply (m <<< (e - t).toNat : Nat) : ℤ) : ℚ) * 2 ^ t = (sign.apply m : ℤ) * 2 ^ e := by
  have hshift := shiftLeft_mul_zpow m (e - t).toNat e
  rw [Int.toNat_of_nonneg (sub_nonneg.2 h), sub_sub_cancel] at hshift
  rw [cast_apply, mul_assoc, hshift, ← mul_assoc, ← cast_apply]

/-- **Rounding a positive number** gives a canonical number and moves by at most a unit of the
exponent that rounding aims at. -/
theorem error_round (sign : Sign) (hm : 0 < m) :
    let rounded := UnpackedFloat.round Format.binary64 sign m e
    Canonical rounded ∧ |unpackedValue rounded - (sign.apply m : ℤ) * 2 ^ e| ≤
      2 ^ Format.binary64.targetExponent (totalExponent m e) := by
  unfold UnpackedFloat.round decreaseExponent
  dsimp only
  generalize hk : (e - Format.binary64.targetExponent (totalExponent m e)).toNat = k
  have hpos : 0 < m <<< k := by
    rw [Nat.shiftLeft_eq]
    exact Nat.mul_pos hm (Nat.two_pow_pos k)
  -- a number aims at the same exponent with more bits
  have htotal : totalExponent (m <<< k) (e - k) = totalExponent m e := by
    rw [totalExponent, totalExponent, log2_shiftLeft hm]
    omega
  have hrounded := error_roundWithAccuracy sign hpos (e := e - k) (by rw [htotal]; omega)
  rw [htotal, cast_apply, mul_assoc, shiftLeft_mul_zpow, ← mul_assoc, ← cast_apply] at hrounded
  exact hrounded

variable {b : Bound}

/-- **Rounding a whole number of units** gives a canonical number and moves by at most a unit of a
bound that the number keeps to. -/
theorem error_normalize {m : Int} (zeroSign : Sign) (h : |(m : ℚ) * 2 ^ e| ≤ b.value) :
    let rounded := UnpackedFloat.normalize Format.binary64 m e zeroSign
    Canonical rounded ∧ Within b rounded ∧
      |unpackedValue rounded - m * 2 ^ e| ≤ 2 ^ b.exponent := by
  have hsize : (m.natAbs : ℚ) * 2 ^ e ≤ b.value := by
    rwa [abs_mul, abs_of_pos (by positivity : (0 : ℚ) < 2 ^ e), ← Int.cast_abs,
      Int.abs_eq_natAbs, Int.cast_natCast] at h
  have hround (sign : Sign) (hm : 0 < m.natAbs) :
      let rounded := UnpackedFloat.round Format.binary64 sign m.natAbs e
      Canonical rounded ∧ |unpackedValue rounded - (sign.apply m.natAbs : ℤ) * 2 ^ e| ≤
        2 ^ b.exponent :=
    ⟨(error_round sign hm).1, (error_round sign hm).2.trans
      (zpow_le_zpow_right₀ one_le_two (targetExponent_le hm hsize))⟩
  have hwithin := within_normalize zeroSign hsize
  unfold UnpackedFloat.normalize at hwithin ⊢
  rcases Int.lt_trichotomy m 0 with hm | rfl | hm
  · rw [Int.compare_eq_lt.2 hm] at hwithin ⊢
    have hsign : Sign.negative.apply m.natAbs = m := by
      show -(m.natAbs : Int) = m
      omega
    obtain ⟨hcanonical, herror⟩ := hround .negative (by omega)
    rw [hsign] at herror
    dsimp only at hwithin ⊢
    rw [show (-m).toNat = m.natAbs by omega] at hwithin ⊢
    exact ⟨hcanonical, hwithin, herror⟩
  · refine ⟨.zero _, hwithin, ?_⟩
    rw [Int.cast_zero, zero_mul]
    exact (abs_eq_zero.2 (sub_zero _)).trans_le (by positivity)
  · rw [Int.compare_eq_gt.2 hm] at hwithin ⊢
    have hsign : Sign.positive.apply m.natAbs = m := by
      show (m.natAbs : Int) = m
      omega
    obtain ⟨hcanonical, herror⟩ := hround .positive (by omega)
    rw [hsign] at herror
    dsimp only at hwithin ⊢
    rw [show m.toNat = m.natAbs by omega] at hwithin ⊢
    exact ⟨hcanonical, hwithin, herror⟩

/-! ## The error of an operation -/

/-- **A number is an exact one within a bound, rounded**: it keeps to the bound, and is at most a
unit of the bound away. -/
structure Rounds (b : Bound) (exact : ℚ) (x : Float) : Prop where
  atMost : AtMost b x
  error_le : |value x - exact| ≤ 2 ^ b.exponent

variable {u v : UnpackedFloat}

/-- A canonical number that is not too large keeps to the bounds that its value keeps to. -/
theorem within_of_abs_unpackedValue_le (hu : Within .largest u) (h : |unpackedValue u| ≤ b.value) :
    Within b u := by
  cases hu with
  | zero sign => exact .zero sign
  | finite sign hpos hleast hgreatest _ =>
    refine .finite sign hpos hleast hgreatest ?_
    rwa [unpackedValue_finite, cast_apply, abs_mul, abs_mul, abs_apply_one, one_mul, Nat.abs_cast,
      abs_of_pos (by positivity)] at h

theorem Canonical.within_largest (hu : Canonical u) (hwithin : Within b u) : Within .largest u := by
  cases hu with
  | zero sign => exact .zero sign
  | finite sign hpos hmantissa hleast _ =>
    obtain - | ⟨_, _, -, hgreatest, -⟩ := hwithin
    exact (Stored.finite sign hpos hmantissa hleast hgreatest).within_largest

/-- What is rounded is stored as it is. -/
theorem rounds_pack {exact : ℚ} (hu : Canonical u) (hwithin : Within b u)
    (herror : |unpackedValue u - exact| ≤ 2 ^ b.exponent) :
    Rounds b exact (Float.ofModel (Float.Model.pack u)) := by
  have hstored := unpack_pack hu (hu.within_largest hwithin)
  refine ⟨?_, ?_⟩
  · show Within b (Float.Model.pack u).unpack
    rwa [hstored]
  · show |unpackedValue (Float.Model.pack u).unpack - exact| ≤ _
    rwa [hstored]

/-- A number that is not rounded has no error. -/
theorem error_self (q : ℚ) : |q - q| ≤ 2 ^ b.exponent := by
  rw [sub_self, abs_zero]
  positivity

/-- The sum of canonical numbers. -/
theorem error_add (hu : Canonical u) (hv : Canonical v) (hularge : Within .largest u)
    (hvlarge : Within .largest v) (h : |unpackedValue u + unpackedValue v| ≤ b.value) :
    let sum := UnpackedFloat.add Format.binary64 u v
    Canonical sum ∧ Within b sum ∧
      |unpackedValue sum - (unpackedValue u + unpackedValue v)| ≤ 2 ^ b.exponent := by
  cases hu with
  | zero sign₁ =>
    have hzero : unpackedValue (.zero sign₁) + unpackedValue v = unpackedValue v := zero_add _
    rw [hzero] at h ⊢
    cases hv with
    | zero sign₂ => cases sign₁ <;> cases sign₂ <;> exact ⟨.zero _, .zero _, error_self 0⟩
    | finite sign₂ hpos hmantissa hleast hleading =>
      exact ⟨.finite sign₂ hpos hmantissa hleast hleading,
        within_of_abs_unpackedValue_le hvlarge h, error_self _⟩
  | @finite sign₁ m₁ e₁ hpos₁ hmantissa₁ hleast₁ hleading₁ =>
    cases hv with
    | zero sign₂ =>
      have hzero (q : ℚ) : q + unpackedValue (.zero sign₂) = q := add_zero q
      rw [hzero] at h ⊢
      exact ⟨.finite sign₁ hpos₁ hmantissa₁ hleast₁ hleading₁,
        within_of_abs_unpackedValue_le hularge h, error_self _⟩
    | @finite sign₂ m₂ e₂ hpos₂ hmantissa₂ hleast₂ hleading₂ =>
      -- both mantissas are shifted to the smaller exponent
      have hexact : ((sign₁.apply (m₁ <<< (e₁ - min e₁ e₂).toNat : Nat) +
          sign₂.apply (m₂ <<< (e₂ - min e₁ e₂).toNat : Nat) : ℤ) : ℚ) * 2 ^ min e₁ e₂ =
            unpackedValue (.finite sign₁ m₁ e₁ hpos₁) +
              unpackedValue (.finite sign₂ m₂ e₂ hpos₂) := by
        rw [Int.cast_add, add_mul, apply_shiftLeft_mul_zpow sign₁ m₁ (min_le_left e₁ e₂),
          apply_shiftLeft_mul_zpow sign₂ m₂ (min_le_right e₁ e₂)]
        rfl
      rw [← hexact] at h ⊢
      exact error_normalize .positive h

/-- **A sum of finite numbers within a bound** is at most a unit of the bound off. -/
theorem rounds_add {x y : Float} (hx : x.isFinite = true) (hy : y.isFinite = true)
    (h : |value x + value y| ≤ b.value) : Rounds b (value x + value y) (x + y) := by
  obtain ⟨hcanonical, hwithin, herror⟩ := error_add (canonical_of_isFinite hx)
    (canonical_of_isFinite hy) (atMost_largest hx) (atMost_largest hy) h
  exact rounds_pack hcanonical hwithin herror

/-- **A difference of finite numbers within a bound** is at most a unit of the bound off. -/
theorem rounds_sub {x y : Float} (hx : x.isFinite = true) (hy : y.isFinite = true)
    (h : |value x - value y| ≤ b.value) : Rounds b (value x - value y) (x - y) := by
  have hneg : unpackedValue x.toModel.unpack + unpackedValue (UnpackedFloat.neg y.toModel.unpack) =
      value x - value y := by
    rw [unpackedValue_neg]
    show value x + -value y = value x - value y
    ring
  rw [← hneg] at h ⊢
  obtain ⟨hcanonical, hwithin, herror⟩ := error_add (canonical_of_isFinite hx)
    (canonical_of_isFinite hy).neg (atMost_largest hx) (Within.neg (atMost_largest hy)) h
  have hrounds := rounds_pack hcanonical hwithin herror
  rwa [← Binary64.sub_eq_add_neg] at hrounds

/-- The exponent of a product of canonical numbers is not above the one that rounding aims at. -/
theorem add_le_targetExponent {sign₁ sign₂ : Sign} {m n : Nat} {e t : Int} {hm : 0 < m} {hn : 0 < n}
    (hu : Canonical (.finite sign₁ m e hm)) (hv : Canonical (.finite sign₂ n t hn)) :
    e + t ≤ Format.binary64.targetExponent (totalExponent (m * n) (e + t)) := by
  rw [targetExponent_eq, totalExponent]
  obtain - | ⟨_, _, -, hleast₁, hleading₁⟩ := hu
  obtain - | ⟨_, _, -, hleast₂, hleading₂⟩ := hv
  by_cases hlong : 2 ^ 52 ≤ m * n
  · have hlog : 52 ≤ (m * n).log2 := (Nat.le_log2 (Nat.mul_pos hm hn).ne').2 hlong
    omega
  · have hm' := hleading₁.resolve_left fun h => hlong (h.trans (Nat.le_mul_of_pos_right m hn))
    have hn' := hleading₂.resolve_left fun h => hlong (h.trans (Nat.le_mul_of_pos_left n hm))
    omega

/-- The product of canonical numbers. -/
theorem error_mul (hu : Canonical u) (hv : Canonical v)
    (h : |unpackedValue u * unpackedValue v| ≤ b.value) :
    let product := UnpackedFloat.mul Format.binary64 u v
    Canonical product ∧ Within b product ∧
      |unpackedValue product - unpackedValue u * unpackedValue v| ≤ 2 ^ b.exponent := by
  have hzero (sign : Sign) : Canonical (.zero sign) ∧ Within b (.zero sign) ∧
      |unpackedValue (.zero sign) - 0| ≤ 2 ^ b.exponent := ⟨.zero sign, .zero sign, error_self 0⟩
  cases hu with
  | zero sign₁ =>
    rw [show unpackedValue (.zero sign₁) * unpackedValue v = 0 from zero_mul _]
    cases hv <;> exact hzero _
  | @finite sign₁ m₁ e₁ hpos₁ hmantissa₁ hleast₁ hleading₁ =>
    cases hv with
    | zero sign₂ =>
      have hnone (q : ℚ) : q * unpackedValue (.zero sign₂) = 0 := mul_zero q
      rw [hnone]
      exact hzero _
    | @finite sign₂ m₂ e₂ hpos₂ hmantissa₂ hleast₂ hleading₂ =>
      have hle := add_le_targetExponent (.finite sign₁ hpos₁ hmantissa₁ hleast₁ hleading₁)
        (.finite sign₂ hpos₂ hmantissa₂ hleast₂ hleading₂)
      have hpos := Nat.mul_pos hpos₁ hpos₂
      have hexact : (((sign₁ * sign₂).apply (m₁ * m₂ : Nat) : ℤ) : ℚ) * 2 ^ (e₁ + e₂) =
          unpackedValue (.finite sign₁ m₁ e₁ hpos₁) *
            unpackedValue (.finite sign₂ m₂ e₂ hpos₂) := by
        have hsign : ((sign₁ * sign₂).apply 1 : ℤ) = sign₁.apply 1 * sign₂.apply 1 := by
          cases sign₁ <;> cases sign₂ <;> rfl
        rw [unpackedValue_finite, unpackedValue_finite, cast_apply, cast_apply sign₁, cast_apply sign₂, hsign,
          zpow_add₀ two_ne_zero]
        push_cast
        ring
      rw [← hexact] at h ⊢
      have hsize : ((m₁ * m₂ : Nat) : ℚ) * 2 ^ (e₁ + e₂) ≤ b.value := by
        rwa [cast_apply, abs_mul, abs_mul, abs_apply_one, one_mul, Nat.abs_cast,
          abs_of_pos (by positivity)] at h
      have hunit := targetExponent_le hpos hsize
      obtain ⟨hcanonical, herror⟩ := error_roundWithAccuracy (sign₁ * sign₂) hpos hle
      exact ⟨hcanonical, within_roundWithAccuracy _ (hle.trans hunit) hsize,
        herror.trans (zpow_le_zpow_right₀ one_le_two hunit)⟩

/-- **A product of finite numbers within a bound** is at most a unit of the bound off. -/
theorem rounds_mul {x y : Float} (hx : x.isFinite = true) (hy : y.isFinite = true)
    (h : |value x * value y| ≤ b.value) : Rounds b (value x * value y) (x * y) := by
  obtain ⟨hcanonical, hwithin, herror⟩ := error_mul (canonical_of_isFinite hx)
    (canonical_of_isFinite hy) h
  exact rounds_pack hcanonical hwithin herror

/-- **A product keeps to a bound** that the bounds of its factors leave room for. -/
theorem AtMost.mul {a c : Bound} {x y : Float} (hx : AtMost a x) (hy : AtMost b y)
    (h : a.value * b.value ≤ c.value) : AtMost c (x * y) := by
  refine (rounds_mul hx.isFinite hy.isFinite ?_).atMost
  rw [abs_mul]
  exact (mul_le_mul hx.abs_value_le hy.abs_value_le (abs_nonneg _) a.value_nonneg).trans h

/-- A summand that is hardly more than nothing hardly matters. -/
theorem near_add {x y : Float} (hx : x.isFinite = true) (hy : y.isFinite = true)
    (h : |value x| + |value y| ≤ b.value) :
    AtMost b (x + y) ∧ |value (x + y) - value x| ≤ 2 ^ b.exponent + |value y| := by
  have hrounds := rounds_add hx hy ((abs_add_le _ _).trans h)
  refine ⟨hrounds.atMost, ?_⟩
  calc |value (x + y) - value x| = |(value (x + y) - (value x + value y)) + value y| := by
        congr 1
        ring
    _ ≤ 2 ^ b.exponent + |value y| :=
        (abs_add_le _ _).trans (add_le_add_left hrounds.error_le _)

/-- A subtrahend that is hardly more than nothing hardly matters. -/
theorem near_sub {x y : Float} (hx : x.isFinite = true) (hy : y.isFinite = true)
    (h : |value x| + |value y| ≤ b.value) :
    AtMost b (x - y) ∧ |value (x - y) - value x| ≤ 2 ^ b.exponent + |value y| := by
  have hrounds := rounds_sub hx hy ((abs_sub _ _).trans h)
  refine ⟨hrounds.atMost, ?_⟩
  calc |value (x - y) - value x| = |(value (x - y) - (value x - value y)) - value y| := by
        congr 1
        ring
    _ ≤ 2 ^ b.exponent + |value y| :=
        (abs_sub _ _).trans (add_le_add_left hrounds.error_le _)

/-! ## Whole numbers -/

/-- A positive number is stored as one. -/
theorem exists_unpack_of_pos {x : Float} (hx : 0 < value x) :
    ∃ m e hpos, x.toModel.unpack = .finite .positive m e hpos := by
  revert hx
  show 0 < unpackedValue x.toModel.unpack → _
  cases x.toModel.unpack with
  | finite sign m e hpos =>
    cases sign with
    | positive => exact fun _ => ⟨m, e, hpos, rfl⟩
    | negative =>
      intro h
      have hnonneg : (0 : ℚ) ≤ m * 2 ^ e := by positivity
      rw [unpackedValue_finite, Sign.apply, Int.cast_neg, Int.cast_natCast, neg_mul] at h
      linarith
  | _ => exact fun h => absurd h (lt_irrefl 0)

/-- Zero is divided by a positive number without an error. -/
theorem zero_div_of_pos {x : Float} (hx : 0 < value x) : Scalar.ofNat 0 / x = Scalar.ofNat 0 := by
  obtain ⟨m, e, hpos, hunpack⟩ := exists_unpack_of_pos hx
  show Float.ofModel (Float.Model.pack (UnpackedFloat.div Format.binary64 _ x.toModel.unpack)) = _
  rw [hunpack]
  rfl

/-- A positive number is divided by itself without an error. -/
theorem div_self_of_pos {x : Float} (hx : 0 < value x) : x / x = Scalar.ofNat 1 := by
  obtain ⟨m, e, hpos, hunpack⟩ := exists_unpack_of_pos hx
  have hexponent : min (e - e) (Format.binary64.targetExponent
      (totalExponent m e - totalExponent m e)) = -53 := by
    rw [Int.sub_self, Int.sub_self]
    rfl
  have hquotient : divCore Format.binary64 m e m e = (2 ^ 53, -53, .exact) := by
    unfold divCore
    dsimp only
    rw [hexponent, Int.sub_self, show (0 - -53 : Int).toNat = 53 from rfl, Nat.shiftLeft_eq,
      Nat.mul_div_cancel_left _ hpos, Nat.mul_mod_right]
    rfl
  show Float.ofModel (Float.Model.pack
    (UnpackedFloat.div Format.binary64 x.toModel.unpack x.toModel.unpack)) = _
  rw [hunpack]
  show Float.ofModel (Float.Model.pack (roundWithAccuracy _ .positive
    (divCore Format.binary64 m e m e).1 (divCore Format.binary64 m e m e).2.1
    (divCore Format.binary64 m e m e).2.2)) = _
  rw [hquotient]
  rfl

/-- How a count becomes a number. -/
theorem ofNat_eq {n : Nat} (hn : n < 2 ^ 53) :
    (Scalar.ofNat n : Float) =
      Float.ofModel (Float.Model.pack (UnpackedFloat.normalize Format.binary64 n 0 .positive)) *
        Scalar.ofNat 1 := by
  have hword : n.toUInt64.toNat = n :=
    Nat.mod_eq_of_lt (hn.trans (by decide))
  have hone : Float.exactlyRepresentablePowersOfTen[0] = Scalar.ofNat 1 := by decide +kernel
  show Float.ofScientific n false 0 = _
  rw [Float.ofScientific, dif_pos ⟨hn, by decide⟩]
  show n.toUInt64.toFloat * Float.exactlyRepresentablePowersOfTen[0] = _
  rw [hone]
  show Float.ofModel (Float.Model.pack (UnpackedFloat.normalize Format.binary64
    (n.toUInt64.toNat : Int) 0 .positive)) * _ = _
  rw [hword]

/-- The number one. -/
theorem value_one : value (Scalar.ofNat 1) = 1 := by
  show ((Sign.positive.apply (2 ^ 52 : Nat) : ℤ) : ℚ) * 2 ^ (-52 : ℤ) = 1
  norm_num [Sign.apply]

/-- **A count that is not too large is a positive number**, unless it is zero. -/
theorem value_ofNat_pos {n : Nat} (hpos : 0 < n) (hn : n ≤ 2 ^ 14) :
    0 < value (Scalar.ofNat n) := by
  have hsize : |((n : ℤ) : ℚ) * 2 ^ (0 : ℤ)| ≤ (Bound.power 14).value := by
    rw [Bound.value_power, zpow_zero, mul_one, Int.cast_natCast, Nat.abs_cast]
    exact_mod_cast hn
  obtain ⟨hcanonical, hwithin, herror⟩ := error_normalize .positive hsize
  have hcount := rounds_pack hcanonical hwithin herror
  rw [ofNat_eq (hn.trans_lt (by decide))]
  generalize Float.ofModel (Float.Model.pack _) = x at hcount
  have hproduct := rounds_mul (b := .power 14) hcount.atMost.isFinite atMost_one.isFinite
    (by rw [value_one, mul_one]; exact hcount.atMost.abs_value_le)
  have hfirst := hcount.error_le
  have hsecond := hproduct.error_le
  have hunit : (2 : ℚ) ^ (Bound.power 14).exponent ≤ 1 / 4 := by norm_num [Bound.power]
  rw [value_one, mul_one] at hsecond
  rw [zpow_zero, mul_one, Int.cast_natCast] at hfirst
  have hone : (1 : ℚ) ≤ n := by exact_mod_cast hpos
  rw [abs_le] at hfirst hsecond
  linarith

/-! ## Negligible differences -/

/-- One part in a billion. -/
theorem unpack_coincidence : (Tolerance.standard : Tolerance Float).coincidence.toModel.unpack =
    .finite .positive 4835703278458517 (-82) (by decide) := by
  rfl

theorem Canonical.abs (hu : Canonical u) : Canonical (UnpackedFloat.abs u) := by
  cases hu with
  | zero sign => exact .zero _
  | finite sign hpos hmantissa hleast hleading => exact .finite _ hpos hmantissa hleast hleading

theorem Within.abs (hu : Within b u) : Within b (UnpackedFloat.abs u) := by
  cases hu with
  | zero sign => exact .zero _
  | finite sign hpos hleast hgreatest hvalue => exact .finite _ hpos hleast hgreatest hvalue

/-- A number within the bound is below one part in a billion. -/
theorem lt_of_within (hu : Canonical u) (hwithin : Within (.power (-30)) u) :
    (UnpackedFloat.abs u).lt (.finite .positive 4835703278458517 (-82) (by decide)) = true := by
  cases hu with
  | zero sign => rfl
  | @finite sign m e hpos hmantissa hleast hleading =>
    obtain - | ⟨_, _, -, -, hvalue⟩ := hwithin
    show (some ((compare e (-82)).then (compare m 4835703278458517)) == some .lt) = true
    by_cases he : e < -82
    · rw [Int.compare_eq_lt.2 he]
      rfl
    · -- from the exponent of the bound on, the mantissa is that of the bound at most
      rw [Bound.value, Bound.power, mul_zpow_eq (not_lt.1 he)] at hvalue
      have hle : m * 2 ^ (e - -82).toNat ≤ 2 ^ 52 := mul_zpow_le_iff.1 hvalue
      have hlong : 2 ^ 52 ≤ m := hleading.resolve_right (by omega)
      obtain rfl : e = -82 := by
        by_contra hne
        have htwo : 2 ^ 1 ≤ 2 ^ (e - -82).toNat := Nat.pow_le_pow_right (by decide) (by omega)
        have := Nat.mul_le_mul hlong htwo
        omega
      have hlt : m < 4835703278458517 := by
        have : m * 2 ^ 0 ≤ 2 ^ 52 := hle
        omega
      rw [Int.compare_eq_eq.2 rfl, Nat.compare_eq_lt.2 hlt]
      rfl

/-- **A number within the bound is negligible** by the standard tolerance. -/
theorem negligible_of_atMost {d : Float} (hd : AtMost (.power (-30)) d) :
    (Tolerance.standard : Tolerance Float).negligible d = true := by
  have hcanonical := canonical_of_isFinite hd.isFinite
  have hstored : (Float.Model.pack (UnpackedFloat.abs d.toModel.unpack)).unpack =
      UnpackedFloat.abs d.toModel.unpack :=
    unpack_pack hcanonical.abs (hcanonical.abs.within_largest (Within.abs hd))
  refine decide_eq_true (?_ : (Float.Model.pack (UnpackedFloat.abs d.toModel.unpack)).unpack.lt
    (Tolerance.standard : Tolerance Float).coincidence.toModel.unpack = true)
  rw [hstored, unpack_coincidence]
  exact lt_of_within hcanonical hd

end Straightedge.Binary64
