import Mathlib.Algebra.Group.Int.Defs
import Mathlib.Algebra.Group.Nat.Defs
import Mathlib.Order.Compare
import Calorimetry.Scalar.Binary64

/-! How the comparisons of readings go together. Points are sorted by the total order on all values
and then checked by `lt`, so a sorted table is in step only if the two agree. On doubles they do: a
pattern stands for a number that grows with it. -/

namespace Calorimetry

/-- The total order does not contradict `lt`, and no finite value lies between two others without
being told apart from one of them. -/
class Scalar.Ordered (α : Type) [Scalar α] : Prop
    extends Std.TransCmp (Scalar.order : α → α → Ordering) where
  not_lt {a b : α} (ordered : (Scalar.order a b).isLE = true) : Scalar.lt b a = false
  lt_or_lt {a b c : α} (finite : Scalar.isFinite b = true) (less : Scalar.lt a c = true) :
    Scalar.lt a b = true ∨ Scalar.lt b c = true

namespace Binary64
open Float.Model Float.Model.UnpackedFloat

def sign (x : Float) : Sign := if isNegative x then .negative else .positive

def signed (s : Sign) (bits : Nat) : Int :=
  match s with
  | .negative => -(bits : Int)
  | .positive => bits

/-- What a sign and a pattern without sign stand for. -/
inductive Stands (s : Sign) (bits : Nat) : UnpackedFloat → Prop
  | infinity (top : bits = infinityBits) : Stands s bits (.infinity s)
  | undefined (beyond : infinityBits < bits) : Stands s bits .notANumber
  | zero (empty : bits = 0) : Stands s bits (.zero s)
  | finite (mantissa : Nat) (exponent : Int) (positive : 0 < mantissa)
      (value : (bits : Int) = mantissa + 2 ^ 52 * (exponent + 1074)) (low : -1074 ≤ exponent)
      (short : mantissa < 2 ^ 53) (full : -1074 < exponent → 2 ^ 52 ≤ mantissa)
      (below : bits < infinityBits) : Stands s bits (.finite s mantissa exponent positive)

section
variable (bits : BitVec Format.binary64.numBits)

private theorem unpackMantissa_toNat : (unpackMantissa bits).toNat = bits.toNat % 2 ^ 52 := by
  simp [unpackMantissa, BitVec.extractLsb_toNat]

private theorem unpackExponent_toNat : (unpackExponent bits).toNat = bits.toNat / 2 ^ 52 % 2 ^ 11 := by
  simp [unpackExponent, BitVec.extractLsb_toNat, Nat.shiftRight_eq_div_pow]

private theorem unpackSign_eq : Sign.ofBitVec (unpackSign bits) =
    if 2 ^ 63 ≤ bits.toNat then .negative else .positive := by
  have bound : bits.toNat < 2 ^ 64 := bits.isLt
  have first : (unpackSign bits).toNat = bits.toNat / 2 ^ 63 := by
    change bits.toNat >>> 63 % 2 ^ 1 = _
    rw [Nat.shiftRight_eq_div_pow]
    omega
  rw [Sign.ofBitVec]
  simp only [← BitVec.toNat_inj, first, BitVec.toNat_ofNat]
  split
  · rw [if_neg (by omega)]
  · rw [if_pos (by omega)]

end

theorem stands (x : Float) : Stands (sign x) (magnitude x) x.toModel.unpack := by
  obtain ⟨⟨⟨bits⟩, valid⟩⟩ := x
  change Stands _ _ (UnpackedFloat.unpack Format.binary64 bits)
  have bound : bits.toNat < 2 ^ 64 := bits.isLt
  have mantissa := unpackMantissa_toNat bits
  have exponent := unpackExponent_toNat bits
  have same : Sign.ofBitVec (@unpackSign Format.binary64 bits) = sign ⟨⟨⟨bits⟩, valid⟩⟩ := by
    have negative : isNegative ⟨⟨⟨bits⟩, valid⟩⟩ = decide (2 ^ 63 ≤ bits.toNat) := rfl
    rw [unpackSign_eq, sign, negative]
    exact (ite_congr decide_eq_true_eq (fun _ => rfl) (fun _ => rfl)).symm
  have pattern : magnitude ⟨⟨⟨bits⟩, valid⟩⟩ = bits.toNat % 2 ^ 63 := rfl
  have top : infinityBits = 2047 * 2 ^ 52 := rfl
  have bias : (Format.binary64.exponentBias : Int) = 1023 := rfl
  have ones : (-1#11).toNat = 2047 := rfl
  have zero {n : Nat} (v : BitVec n) : v = 0#n ↔ v.toNat = 0 := by
    rw [← BitVec.toNat_inj, BitVec.toNat_ofNat, Nat.zero_mod]
  have full : @unpackExponent Format.binary64 bits = -.ofNat Format.binary64.exponentBits 1 ↔
      bits.toNat / 2 ^ 52 % 2 ^ 11 = 2047 := by
    rw [← BitVec.toNat_inj, ← ones, ← exponent]
  have least : @unpackExponent Format.binary64 bits = .ofNat Format.binary64.exponentBits 0 ↔
      bits.toNat / 2 ^ 52 % 2 ^ 11 = 0 := by
    rw [← exponent]
    exact zero _
  have empty : @unpackMantissa Format.binary64 bits =
      .ofNat Format.binary64.mantissaBitsWithoutImplicit 0 ↔ bits.toNat % 2 ^ 52 = 0 := by
    rw [← mantissa]
    exact zero _
  delta UnpackedFloat.unpack
  dsimp only
  rw [same, pattern, bias]
  by_cases special : bits.toNat / 2 ^ 52 % 2 ^ 11 = 2047
  · rw [if_pos (full.mpr special)]
    by_cases none : bits.toNat % 2 ^ 52 = 0
    · rw [if_pos (empty.mpr none)]
      exact .infinity (by omega)
    · rw [if_neg (mt empty.mp none)]
      exact .undefined (by omega)
  · rw [if_neg (mt full.mp special)]
    by_cases small : bits.toNat / 2 ^ 52 % 2 ^ 11 = 0
    · rw [if_pos (least.mpr small)]
      by_cases none : bits.toNat % 2 ^ 52 = 0
      · rw [dif_pos (empty.mpr none)]
        exact .zero (by omega)
      · rw [dif_neg (mt empty.mp none)]
        apply Stands.finite <;> omega
    · rw [if_neg (mt least.mp small)]
      have joined : (1#1 ++ @unpackMantissa Format.binary64 bits).toNat =
          2 ^ 52 + bits.toNat % 2 ^ 52 := by
        rw [BitVec.toNat_append, mantissa,
          ← Nat.shiftLeft_add_eq_or_of_lt (Nat.mod_lt _ (by decide))]
        rfl
      apply Stands.finite <;> omega

/-- The exponent comes before the mantissa in a pattern, so patterns compare as pairs do. -/
private theorem Stands.compare_finite {s : Sign} {a b m₁ m₂ : Nat} {e₁ e₂ : Int} {p₁ : 0 < m₁} {p₂ : 0 < m₂}
    (first : Stands s a (.finite s m₁ e₁ p₁)) (second : Stands s b (.finite s m₂ e₂ p₂)) :
    (UnpackedFloat.finite s m₁ e₁ p₁).compare (.finite s m₂ e₂ p₂) =
      some (Ord.compare (signed s a) (signed s b)) := by
  obtain _ | _ | _ | ⟨_, _, _, value₁, low₁, short₁, full₁, _⟩ := first
  obtain _ | _ | _ | ⟨_, _, _, value₂, low₂, short₂, full₂, _⟩ := second
  have pair : (Ord.compare e₁ e₂).then (Ord.compare m₁ m₂) = Ord.compare (a : Int) b := by
    rcases Int.lt_trichotomy e₁ e₂ with before | rfl | after
    · rw [Int.compare_eq_lt.mpr before, Int.compare_eq_lt.mpr (by omega)]
      rfl
    · rw [Std.compare_self, Ordering.eq_then]
      rcases Nat.lt_trichotomy m₁ m₂ with less | rfl | more
      · rw [Nat.compare_eq_lt.mpr less, Int.compare_eq_lt.mpr (by omega)]
      · rw [Std.compare_self, Int.compare_eq_eq.mpr (by omega)]
      · rw [Nat.compare_eq_gt.mpr more, Int.compare_eq_gt.mpr (by omega)]
    · rw [Int.compare_eq_gt.mpr after, Int.compare_eq_gt.mpr (by omega)]
      rfl
  cases s with
  | positive => exact congrArg some pair
  | negative =>
    refine congrArg some ((congrArg Ordering.swap pair).trans ?_)
    rw [← Int.instTransOrd.eq_swap]
    simp only [signed]
    rcases Int.lt_trichotomy (b : Int) a with less | same | more
    · rw [Int.compare_eq_lt.mpr less, Int.compare_eq_lt.mpr (by omega)]
    · rw [same, Std.compare_self, Std.compare_self]
    · rw [Int.compare_eq_gt.mpr more, Int.compare_eq_gt.mpr (by omega)]

theorem signed_bound (s : Sign) (bits : Nat) :
    -(bits : Int) ≤ signed s bits ∧ signed s bits ≤ bits := by
  cases s <;> simp only [signed] <;> omega

private theorem less {x y : Int} (before : x < y) : some Ordering.lt = some (Ord.compare x y) :=
  congrArg some (Int.compare_eq_lt.mpr before).symm

private theorem more {x y : Int} (after : y < x) : some Ordering.gt = some (Ord.compare x y) :=
  congrArg some (Int.compare_eq_gt.mpr after).symm

private theorem Stands.compare {s₁ s₂ : Sign} {a b : Nat} {u v : UnpackedFloat} (first : Stands s₁ a u)
    (second : Stands s₂ b v) (left : a ≤ infinityBits) (right : b ≤ infinityBits) :
    u.compare v = some (Ord.compare (signed s₁ a) (signed s₂ b)) := by
  have top : infinityBits = 2047 * 2 ^ 52 := rfl
  have bound₁ := signed_bound s₁ a
  have bound₂ := signed_bound s₂ b
  -- Where the kinds differ, the sign of the larger one decides; zeros are equal whatever their signs.
  cases first with
  | undefined beyond => omega
  | infinity full =>
    cases second with
    | undefined beyond => omega
    | infinity full' =>
      subst full full'
      cases s₁ <;> cases s₂ <;> rfl
    | zero empty =>
      cases s₁ with
      | negative => exact less (by simp only [signed] at bound₁ bound₂ ⊢; omega)
      | positive => exact more (by simp only [signed] at bound₁ bound₂ ⊢; omega)
    | finite m e positive value low short large below =>
      cases s₁ with
      | negative => exact less (by simp only [signed] at bound₁ bound₂ ⊢; omega)
      | positive => exact more (by simp only [signed] at bound₁ bound₂ ⊢; omega)
  | zero empty =>
    cases second with
    | undefined beyond => omega
    | infinity full =>
      cases s₂ with
      | negative => exact more (by simp only [signed] at bound₁ bound₂ ⊢; omega)
      | positive => exact less (by simp only [signed] at bound₁ bound₂ ⊢; omega)
    | zero empty' =>
      subst empty empty'
      cases s₁ <;> cases s₂ <;> rfl
    | finite m e positive value low short large below =>
      cases s₂ with
      | negative => exact more (by simp only [signed] at bound₁ bound₂ ⊢; omega)
      | positive => exact less (by simp only [signed] at bound₁ bound₂ ⊢; omega)
  | finite m e positive value low short large below =>
    have fits := Stands.finite (s := s₁) m e positive value low short large below
    cases second with
    | undefined beyond => omega
    | infinity full =>
      cases s₂ with
      | negative => exact more (by simp only [signed] at bound₁ bound₂ ⊢; omega)
      | positive => exact less (by simp only [signed] at bound₁ bound₂ ⊢; omega)
    | zero empty =>
      cases s₁ with
      | negative => exact less (by simp only [signed] at bound₁ bound₂ ⊢; omega)
      | positive => exact more (by simp only [signed] at bound₁ bound₂ ⊢; omega)
    | finite m' e' positive' value' low' short' large' below' =>
      have fits' := Stands.finite (s := s₂) m' e' positive' value' low' short' large' below'
      cases s₁ with
      | negative =>
        cases s₂ with
        | negative => exact fits.compare_finite fits'
        | positive => exact less (by simp only [signed]; omega)
      | positive =>
        cases s₂ with
        | negative => exact more (by simp only [signed]; omega)
        | positive => exact fits.compare_finite fits'

private theorem Stands.le_of_compare_left {s : Sign} {a : Nat} {u v : UnpackedFloat} {o : Ordering}
    (first : Stands s a u) (compared : u.compare v = some o) : a ≤ infinityBits := by
  cases first with
  | undefined beyond => contradiction
  | infinity top => omega
  | zero empty => omega
  | finite m e positive value low short large below => omega

private theorem Stands.le_of_compare_right {s : Sign} {b : Nat} {u v : UnpackedFloat} {o : Ordering}
    (second : Stands s b v) (compared : u.compare v = some o) : b ≤ infinityBits := by
  cases second with
  | undefined beyond =>
    have none : u.compare .notANumber = none := by cases u <;> rfl
    rw [none] at compared
    contradiction
  | infinity top => omega
  | zero empty => omega
  | finite m e positive value low short large below => omega

def isDefined (x : Float) : Bool := magnitude x ≤ infinityBits

/-- The position of a defined double among the defined ones; both zeros have one. -/
def key (x : Float) : Int := signed (sign x) (magnitude x)

theorem lt_iff (x y : Float) :
    x < y ↔ isDefined x = true ∧ isDefined y = true ∧ key x < key y := by
  have compared : x < y ↔ x.toModel.unpack.compare y.toModel.unpack = some .lt := by
    change x.lt y = true ↔ _
    rw [Float.lt, decide_eq_true_iff]
    change x.toModel.unpack.lt y.toModel.unpack = true ↔ _
    rw [UnpackedFloat.lt, beq_iff_eq]
  have first := stands x
  have second := stands y
  rw [compared, isDefined, isDefined, decide_eq_true_iff, decide_eq_true_iff, key, key]
  constructor
  · intro before
    have left := first.le_of_compare_left before
    have right := second.le_of_compare_right before
    rw [first.compare second left right, Option.some.injEq] at before
    exact ⟨left, right, Int.compare_eq_lt.mp before⟩
  · rintro ⟨left, right, before⟩
    rw [first.compare second left right, Int.compare_eq_lt.mpr before]

private theorem le_iff (x y : Float) :
    x ≤ y ↔ isDefined x = true ∧ isDefined y = true ∧ key x ≤ key y := by
  have compared : x ≤ y ↔ ∃ o, x.toModel.unpack.compare y.toModel.unpack = some o ∧ o.isLE = true := by
    change x.le y = true ↔ _
    rw [Float.le, decide_eq_true_iff]
    change x.toModel.unpack.le y.toModel.unpack = true ↔ _
    rw [UnpackedFloat.le, Option.any_eq_true_iff_get]
    constructor
    · rintro ⟨some, least⟩
      exact ⟨_, (Option.some_get some).symm, least⟩
    · rintro ⟨o, same, least⟩
      simp [same, least]
  have first := stands x
  have second := stands y
  rw [compared, isDefined, isDefined, decide_eq_true_iff, decide_eq_true_iff, key, key]
  constructor
  · rintro ⟨o, same, least⟩
    have left := first.le_of_compare_left same
    have right := second.le_of_compare_right same
    rw [first.compare second left right, Option.some.injEq] at same
    rw [← same] at least
    exact ⟨left, right, Int.isLE_compare.mp least⟩
  · rintro ⟨left, right, least⟩
    exact ⟨_, first.compare second left right, Int.isLE_compare.mpr least⟩

theorem nonneg_iff (x : Float) : 0 ≤ x ↔ isDefined x = true ∧ 0 ≤ key x := by
  have zero : isDefined 0 = true ∧ key 0 = 0 := by decide
  rw [le_iff, zero.2]
  exact ⟨fun all => all.2, fun both => ⟨zero.1, both⟩⟩

private theorem key_eq_magnitude {x : Float} (nonneg : 0 ≤ key x) : key x = magnitude x := by
  rw [key, sign] at nonneg ⊢
  cases negative : isNegative x with
  | false => simp [signed]
  | true =>
    simp only [negative, if_true, signed] at nonneg ⊢
    omega

/-- From zero on, doubles compare as their patterns do. -/
theorem lt_iff_of_nonneg {x y : Float} (first : 0 ≤ x) (second : 0 ≤ y) :
    x < y ↔ magnitude x < magnitude y := by
  obtain ⟨left, above⟩ := (nonneg_iff x).mp first
  obtain ⟨right, above'⟩ := (nonneg_iff y).mp second
  rw [lt_iff, key_eq_magnitude above, key_eq_magnitude above', Int.ofNat_lt]
  exact ⟨fun all => all.2.2, fun less => ⟨left, right, less⟩⟩

theorem le_iff_not_lt_of_isDefined {x y : Float} (first : isDefined x = true)
    (second : isDefined y = true) : x ≤ y ↔ ¬y < x := by
  simp [le_iff, lt_iff, first, second]

theorem le_iff_not_lt {x y : Float} (first : 0 ≤ x) (second : 0 ≤ y) : x ≤ y ↔ ¬y < x :=
  le_iff_not_lt_of_isDefined ((nonneg_iff x).mp first).1 ((nonneg_iff y).mp second).1

theorem magnitude_lt_of_isFinite {x : Float} (finite : x.isFinite = true) : magnitude x < infinityBits := by
  have shape := stands x
  change x.toModel.unpack.isFinite = true at finite
  generalize x.toModel.unpack = u at shape finite
  cases shape with
  | infinity top => cases finite
  | undefined beyond => cases finite
  | zero empty =>
    rw [empty]
    decide
  | finite m e positive value low short large below => exact below

theorem isDefined_of_isFinite {x : Float} (finite : x.isFinite = true) : isDefined x = true :=
  decide_eq_true (Nat.le_of_lt (magnitude_lt_of_isFinite finite))

theorem nonneg_of_isPositive {x : Float} (positive : Scalar.isPositive x = true) : 0 ≤ x := by
  rw [Scalar.isPositive, Bool.and_eq_true] at positive
  obtain ⟨_, defined, above⟩ := (lt_iff 0 x).mp (of_decide_eq_true positive.2)
  exact (nonneg_iff x).mpr ⟨defined, Int.le_of_lt above⟩

theorem nonneg_of_isNonnegative {x : Float} (nonneg : Scalar.isNonnegative x = true) : 0 ≤ x := by
  rw [Scalar.isNonnegative, Bool.and_eq_true] at nonneg
  exact of_decide_eq_true nonneg.2

private theorem key_le_of_rank_le {x y : Float} (ordered : rank x ≤ rank y) : key x ≤ key y := by
  rw [rank, rank] at ordered
  rw [key, key, sign, sign]
  cases negative : isNegative x <;> cases negative' : isNegative y <;>
    simp only [negative, negative', signed, if_true, Bool.false_eq_true, if_false] at ordered ⊢ <;>
    omega

instance : Scalar.Ordered Float where
  eq_swap := Int.instTransOrd.eq_swap
  isLE_trans := Int.instTransOrd.isLE_trans
  not_lt {x y} ordered := by
    apply decide_eq_false
    intro less
    obtain ⟨_, _, before⟩ := (lt_iff y x).mp less
    have := key_le_of_rank_le (Int.isLE_compare.mp ordered)
    omega
  lt_or_lt {x y z} finite less := by
    obtain ⟨left, right, before⟩ := (lt_iff x z).mp (of_decide_eq_true less)
    have middle := isDefined_of_isFinite finite
    rcases Int.lt_or_le (key x) (key y) with first | first
    · exact .inl (decide_eq_true ((lt_iff x y).mpr ⟨left, middle, first⟩))
    · exact .inr (decide_eq_true ((lt_iff y z).mpr ⟨middle, right, by omega⟩))

end Binary64
end Calorimetry
