import Calorimetry.Duration
import Calorimetry.Proofs.Scalar.Order

/-! How large the results of arithmetic on doubles can get. A double that is `Within` an exponent is finite
and not negative, and its last place counts for at most that power of two. Conversions, quotients and sums
stay within exponents that follow from those of their arguments, so every span of time is a finite number of
seconds, and a rise by more than a double can hold is infinitely steep however long it takes. -/

namespace Calorimetry.Binary64
open Float.Model Float.Model.UnpackedFloat

/-- Zero, or finite and above it with an exponent of at most `top`. -/
inductive Within (top : Int) : UnpackedFloat → Prop
  | zero : Within top (.zero .positive)
  | finite (mantissa : Nat) (exponent : Int) (positive : 0 < mantissa) (bound : exponent ≤ top) :
      Within top (.finite .positive mantissa exponent positive)

private theorem Within.mono {top top' : Int} {u : UnpackedFloat} (within : Within top u) (le : top ≤ top') :
    Within top' u := by
  cases within with
  | zero => exact .zero
  | finite m e positive bound => exact .finite m e positive (Int.le_trans bound le)

/-! ## Rounding -/

private theorem shiftRight_mantissa (m : ExtendedMantissa) (n : Nat) : (m >>> n).mantissa = m.mantissa / 2 ^ n := by
  induction n with
  | zero => exact (Nat.div_one _).symm
  | succ n ih =>
    have step : (m >>> (n + 1)).mantissa = (m >>> n).mantissa / 2 := rfl
    rw [step, ih, Nat.div_div_eq_div_mul, Nat.pow_succ]

private theorem ofMantissaAndAccuracy_mantissa (m : Nat) (a : Accuracy) :
    (ExtendedMantissa.ofMantissaAndAccuracy m a).mantissa = m := by
  cases a with
  | exact => rfl
  | inexact o => cases o <;> rfl

private theorem roundedMantissa_le (m : ExtendedMantissa) : m.roundedMantissa ≤ m.mantissa + 1 := by
  obtain ⟨mantissa, roundBit, stickyBit⟩ := m
  have even : mantissa + mantissa % 2 ≤ mantissa + 1 := by omega
  cases roundBit <;> cases stickyBit
  · exact Nat.le_succ _
  · exact Nat.le_succ _
  · exact even
  · exact Nat.le_refl _

private theorem log2_le_of_le_two_pow {m b : Nat} (le : m ≤ 2 ^ b) : m.log2 ≤ b := by
  by_cases zero : m = 0
  · rw [zero]
    exact Nat.zero_le _
  · have less : m < 2 ^ (b + 1) :=
      Nat.lt_of_le_of_lt le (Nat.pow_lt_pow_right (by decide) (Nat.lt_succ_self b))
    exact Nat.le_of_lt_succ ((Nat.log2_lt zero).mpr less)

private theorem shiftLeft_lt {m b n k : Nat} (short : m < 2 ^ b) (le : n ≤ k) : m <<< n < 2 ^ (b + k) := by
  rw [Nat.shiftLeft_eq, Nat.pow_add]
  exact Nat.lt_of_lt_of_le (Nat.mul_lt_mul_of_pos_right short (Nat.two_pow_pos n))
    (Nat.mul_le_mul_left _ (Nat.pow_le_pow_right (by decide) le))

private theorem targetExponent_eq (total : Int) : Format.binary64.targetExponent total = max (total - 53) (-1074) :=
  rfl

/-- Shifting leaves 53 bits of a mantissa, so what is no more than `2 ^ (top + 52)` gets to `top` at most. -/
private theorem shiftToTargetExponent_le {top : Int} {m b : Nat} {e : Int} (short : m ≤ 2 ^ b)
    (total : b + e ≤ top + 52) (le : e ≤ top) (normal : -1074 ≤ top) (a : Accuracy) :
    (shiftToTargetExponent .binary64 m e a).2 ≤ top := by
  have log := log2_le_of_le_two_pow short
  change e + ((Format.binary64.targetExponent (totalExponent m e) - e).toNat : Int) ≤ top
  rw [targetExponent_eq, totalExponent]
  omega

/-- The value of a mantissa, zero or not. -/
def ofMantissa (m : Nat) (e : Int) : UnpackedFloat :=
  if zero : m = 0 then .zero .positive else .finite .positive m e (Nat.pos_of_ne_zero zero)

private theorem ofMantissa_within {top : Int} (m : Nat) {e : Int} (le : e ≤ top) : Within top (ofMantissa m e) := by
  rw [ofMantissa]
  by_cases zero : m = 0
  · rw [dif_pos zero]
    exact .zero
  · rw [dif_neg zero]
    exact .finite _ _ _ le

private theorem roundWithAccuracy_eq (m : Nat) (e : Int) (a : Accuracy) :
    roundWithAccuracy .binary64 .positive m e a =
      let first := shiftToTargetExponent .binary64 m e a
      let second := shiftToTargetExponent .binary64 first.1.roundedMantissa first.2 .exact
      ofMantissa second.1.mantissa second.2 := rfl

/-- What is left after a shift and rounding has no more bits in all. Rounding up can carry into one bit more than
the shift has left, which is why there is a second shift. -/
private theorem exists_bits_of_shift {m b : Nat} {e : Int} (short : m < 2 ^ b) (a : Accuracy) :
    let shifted := shiftToTargetExponent .binary64 m e a
    ∃ bits : Nat, shifted.1.roundedMantissa ≤ 2 ^ bits ∧ bits + shifted.2 ≤ max (b + e) shifted.2 := by
  generalize shift : (Format.binary64.targetExponent (totalExponent m e) - e).toNat = n
  have shifted : shiftToTargetExponent .binary64 m e a =
      (ExtendedMantissa.ofMantissaAndAccuracy m a >>> n, e + n) := by
    rw [← shift]
    rfl
  rw [shifted]
  have quotient : m / 2 ^ n < 2 ^ (b - n) := by
    rw [Nat.div_lt_iff_lt_mul (Nat.two_pow_pos n), ← Nat.pow_add]
    exact Nat.lt_of_lt_of_le short (Nat.pow_le_pow_right (by decide) (by omega))
  refine ⟨b - n, ?_, by dsimp only; omega⟩
  have up := roundedMantissa_le (ExtendedMantissa.ofMantissaAndAccuracy m a >>> n)
  rw [shiftRight_mantissa, ofMantissaAndAccuracy_mantissa] at up
  exact Nat.le_trans up quotient

section
variable {top : Int} {m b : Nat} {e : Int} (short : m < 2 ^ b) (total : b + e ≤ top + 52) (le : e ≤ top)
  (normal : -1074 ≤ top)
include short total le normal

private theorem roundWithAccuracy_within (a : Accuracy) :
    Within top (roundWithAccuracy .binary64 .positive m e a) := by
  have shifted := shiftToTargetExponent_le (Nat.le_of_lt short) total le normal a
  obtain ⟨bits, carried, fewer⟩ := exists_bits_of_shift short a
  rw [roundWithAccuracy_eq]
  exact ofMantissa_within _ (shiftToTargetExponent_le carried (by omega) shifted normal .exact)

private theorem round_within : Within top (UnpackedFloat.round .binary64 .positive m e) := by
  rw [UnpackedFloat.round, decreaseExponent]
  dsimp only
  generalize (e - Format.binary64.targetExponent (totalExponent m e)).toNat = n
  exact roundWithAccuracy_within (shiftLeft_lt short (Nat.le_refl n)) (by omega) (by omega) normal _

private theorem normalize_within : Within top (UnpackedFloat.normalize .binary64 m e .positive) := by
  rw [UnpackedFloat.normalize]
  cases m with
  | zero => exact .zero
  | succ m => exact round_within short total le normal

end

/-! ## Packing -/

private theorem packComponents_toNat (e : BitVec 11) (m : BitVec 52) :
    (packComponents .binary64 .positive e m).toNat = e.toNat * 2 ^ 52 + m.toNat := by
  have zero : (Sign.positive.toBitVec ++ e).toNat = e.toNat := by
    rw [BitVec.toNat_append]
    exact Nat.zero_or _
  change ((Sign.positive.toBitVec ++ e) ++ m).toNat = _
  rw [BitVec.toNat_append, zero, ← Nat.shiftLeft_add_eq_or_of_lt m.isLt, Nat.shiftLeft_eq]

private theorem within_of_magnitude {top : Int} {x : Float} (positive : isNegative x = false)
    (small : (magnitude x : Int) < 2 ^ 52 * (top + 1076)) (below : magnitude x < infinityBits)
    (normal : -1074 ≤ top) : Within top x.toModel.unpack := by
  have shape := stands x
  have same : sign x = .positive := by
    rw [sign, positive]
    rfl
  rw [same] at shape
  generalize x.toModel.unpack = u at shape
  cases shape with
  | infinity top => omega
  | undefined beyond => omega
  | zero empty => exact .zero
  | finite m e positive value low short full below => exact .finite m e positive (by omega)

private theorem pack_toNat_lt {top : Int} {u : UnpackedFloat} (within : Within top u) (normal : -1074 ≤ top)
    (bounded : top ≤ 971) : ((UnpackedFloat.pack .binary64 u).toNat : Int) < 2 ^ 52 * (top + 1076) := by
  have joined (e : BitVec 11) (m : BitVec 52) (low : (e.toNat : Int) ≤ top + 1075) :
      ((packComponents .binary64 .positive e m).toNat : Int) < 2 ^ 52 * (top + 1076) := by
    have short := m.isLt
    rw [packComponents_toNat]
    omega
  have subnormal : ((0#11).toNat : Int) ≤ top + 1075 := by
    rw [BitVec.toNat_zero]
    omega
  cases within with
  | zero => exact joined 0 0 subnormal
  | finite m e positive bound =>
    have bias : (Format.binary64.exponentBias : Int) = 1023 := rfl
    have width : (Format.binary64.mantissaBitsWithoutImplicit : Int) = 52 := rfl
    have exponents : 2 ^ Format.binary64.exponentBits = 2048 := rfl
    delta UnpackedFloat.pack
    dsimp only
    rw [if_neg (by omega)]
    split
    · apply joined
      rw [BitVec.toNat_ofNat]
      omega
    · exact joined 0 _ subnormal

private theorem pack_within {top : Int} {u : UnpackedFloat} (within : Within top u) (normal : -1074 ≤ top)
    (bounded : top ≤ 971) : Within top (Float.Model.pack u).unpack := by
  have small := pack_toNat_lt within normal bounded
  have infinite : infinityBits = 2047 * 2 ^ 52 := rfl
  let x : Float := ⟨Float.Model.pack u⟩
  have bits : x.toBits.toNat = (UnpackedFloat.pack .binary64 u).toNat := rfl
  have same : magnitude x = (UnpackedFloat.pack .binary64 u).toNat := by
    rw [magnitude, bits]
    change _ % 2 ^ 63 = _
    omega
  have positive : isNegative x = false := by
    rw [isNegative, bits]
    apply decide_eq_false
    change ¬2 ^ 63 ≤ _
    omega
  refine within_of_magnitude (x := x) positive ?_ ?_ normal
  · rw [same]
    exact small
  · rw [same]
    omega

/-! ## Operations -/

private theorem unpack_short {x : Float} {s : Sign} {m : Nat} {e : Int} {positive : 0 < m}
    (finite : x.toModel.unpack = .finite s m e positive) : m < 2 ^ 53 := by
  have shape := stands x
  rw [finite] at shape
  generalize sign x = s' at shape
  cases shape with
  | finite m e positive value low short full below => exact short

/-- A natural of a machine word has at most 64 bits, of which 53 are kept. -/
private theorem ofNat_within {n : Nat} (short : n < 2 ^ 64) : Within 12 (ofNat n).toModel.unpack := by
  have word : n.toUInt64.toNat = n := Nat.mod_eq_of_lt short
  have converted : ofNat n = ⟨Float.Model.pack (UnpackedFloat.normalize .binary64 n 0 .positive)⟩ := by
    rw [ofNat]
    refine (if_pos short).trans ?_
    change (⟨Float.Model.pack (UnpackedFloat.normalize .binary64 n.toUInt64.toNat 0 .positive)⟩ : Float) = _
    rw [word]
  rw [converted]
  exact pack_within (normalize_within short (by decide) (by decide) (by decide)) (by decide) (by decide)

section
variable (m : Nat) (e : Int) (positive : 0 < m) (m' : Nat) (e' : Int) (positive' : 0 < m')

private theorem div_finite : UnpackedFloat.div .binary64 (.finite .positive m e positive)
    (.finite .positive m' e' positive') =
      let t := min (e - e') (Format.binary64.targetExponent (totalExponent m e - totalExponent m' e'))
      let n := (e - e' - t).toNat
      roundWithAccuracy .binary64 .positive (m <<< n / m') t (accuracyOfFraction (m <<< n % m') m') := rfl

private theorem add_finite : UnpackedFloat.add .binary64 (.finite .positive m e positive)
    (.finite .positive m' e' positive') =
      UnpackedFloat.normalize .binary64
        ((m <<< (e - min e e').toNat + m' <<< (e' - min e e').toNat : Nat) : Int) (min e e') .positive := rfl

end

private theorem div_within {top : Int} {x y : Float} (within : Within top x.toModel.unpack) {m : Nat} {e : Int}
    {positive : 0 < m} (divisor : y.toModel.unpack = .finite .positive m e positive)
    (normal : -1074 ≤ top - e + 1) (bounded : top - e + 1 ≤ 971) :
    Within (top - e + 1) (x / y).toModel.unpack := by
  change Within _ (Float.Model.pack (UnpackedFloat.div .binary64 x.toModel.unpack y.toModel.unpack)).unpack
  refine pack_within ?_ normal bounded
  rw [divisor]
  have short {m e p} (dividend : x.toModel.unpack = .finite .positive m e p) := unpack_short dividend
  generalize x.toModel.unpack = u at within short ⊢
  cases within with
  | zero => exact .zero
  | finite m' e' positive' bound =>
    rw [div_finite]
    dsimp only
    generalize target : min (e' - e)
      (Format.binary64.targetExponent (totalExponent m' e' - totalExponent m e)) = t
    generalize shift : (e' - e - t).toNat = n
    have quotient : m' <<< n / m < 2 ^ (53 + n) :=
      Nat.lt_of_le_of_lt (Nat.div_le_self _ _) (shiftLeft_lt (short rfl) (Nat.le_refl n))
    exact roundWithAccuracy_within quotient (by omega) (by omega) normal _

private theorem add_within {top : Int} {x y : Float} (first : Within top x.toModel.unpack)
    (second : Within top y.toModel.unpack) (normal : -1074 ≤ top) (bounded : top ≤ 969) :
    Within (top + 2) (x + y).toModel.unpack := by
  change Within _ (Float.Model.pack (UnpackedFloat.add .binary64 x.toModel.unpack y.toModel.unpack)).unpack
  refine pack_within ?_ (by omega) (by omega)
  have short {m e p} (left : x.toModel.unpack = .finite .positive m e p) := unpack_short left
  have short' {m e p} (right : y.toModel.unpack = .finite .positive m e p) := unpack_short right
  generalize x.toModel.unpack = u at first short ⊢
  generalize y.toModel.unpack = v at second short' ⊢
  cases first with
  | zero =>
    cases second with
    | zero => exact .zero
    | finite m' e' positive' bound' => exact .finite _ _ _ (by omega)
  | finite m e positive bound =>
    cases second with
    | zero => exact .finite _ _ _ (by omega)
    | finite m' e' positive' bound' =>
      rw [add_finite]
      generalize common : min e e' = t
      have left := shiftLeft_lt (n := (e - t).toNat) (k := (top - t).toNat) (short rfl) (by omega)
      have right := shiftLeft_lt (n := (e' - t).toNat) (k := (top - t).toNat) (short' rfl) (by omega)
      have sum : m <<< (e - t).toNat + m' <<< (e' - t).toNat < 2 ^ (54 + (top - t).toNat) := by
        rw [Nat.pow_add] at left right ⊢
        omega
      exact normalize_within sum (by omega) (by omega) (by omega)

/-! ## Times and rates -/

private theorem perSecond_unpack : (ofNat Duration.perSecond).toModel.unpack =
    .finite .positive (Duration.perSecond * 2 ^ 23) (-23) (by decide) := rfl

/-- Every span of time is a finite number of seconds. -/
theorem seconds_within {d : Duration} (le : d ≤ Duration.limit) :
    Within 38 (Duration.seconds d : Float).toModel.unpack := by
  have whole : d / Duration.perSecond < 2 ^ 64 := by
    have limit : Duration.limit < 2 ^ 64 * Duration.perSecond := by decide
    exact (Nat.div_lt_iff_lt_mul (by decide)).mpr (Nat.lt_of_le_of_lt le limit)
  have rest : d % Duration.perSecond < 2 ^ 64 := Nat.lt_trans (Nat.mod_lt d (by decide)) (by decide)
  have part := div_within (ofNat_within rest) perSecond_unpack (by decide) (by decide)
  exact add_within ((ofNat_within whole).mono (by decide)) part (by decide) (by decide)

def infinity : Float := ofMagnitude false infinityBits

def greatest : Float := ofMagnitude false (infinityBits - 1)

/-- The finite double farthest below zero. -/
def lowest : Float := ofMagnitude true (infinityBits - 1)

theorem greatest_sub_lowest : greatest - lowest = infinity := by decide

theorem infinity_div {top : Int} {x : Float} (within : Within top x.toModel.unpack) :
    infinity / x = infinity := by
  have infinite : infinity.toModel.unpack = .infinity .positive := rfl
  change (⟨Float.Model.pack (UnpackedFloat.div .binary64 infinity.toModel.unpack _)⟩ : Float) = _
  rw [infinite]
  generalize x.toModel.unpack = u at within
  have packed : (⟨Float.Model.pack (.infinity .positive)⟩ : Float) = infinity := by decide
  cases within with
  | zero => exact packed
  | finite m e positive bound => exact packed

theorem lt_infinity {x : Float} (finite : x.isFinite = true) : x < infinity := by
  have top : isDefined infinity = true ∧ key infinity = infinityBits := by decide
  have nonzero : 0 < infinityBits := by decide
  have bound := (signed_bound (sign x) (magnitude x)).2
  have shape := stands x
  rw [lt_iff, top.2]
  refine ⟨isDefined_of_isFinite finite, top.1, ?_⟩
  change x.toModel.unpack.isFinite = true at finite
  rw [key]
  generalize x.toModel.unpack = u at shape finite
  cases shape with
  | infinity top => contradiction
  | undefined beyond => contradiction
  | zero empty => omega
  | finite m e positive value low short full below => omega

end Calorimetry.Binary64
