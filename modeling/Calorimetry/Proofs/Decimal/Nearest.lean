import Calorimetry.Decimal.Nearest
import Calorimetry.Decimal.Shortest
import Calorimetry.Proofs.Duration
import Mathlib.Algebra.Order.Field.Power
import Mathlib.Tactic.FieldSimp
import Mathlib.Tactic.Linarith
import Mathlib.Tactic.Positivity
import Mathlib.Tactic.Qify
import Mathlib.Tactic.Ring

/-! Which numbers read as a double. They are the ones up to half a unit away from it, with a quarter below a power
of two, where the units get smaller. -/

namespace Calorimetry

/-- A power with its two signs of the exponent kept apart, as numerator and denominator. -/
theorem pow_toNat_div (b : ℚ) (e : ℤ) : b ^ e.toNat / b ^ (-e).toNat = b ^ e := by
  rcases Int.le_total 0 e with up | down
  · have none : (-e).toNat = 0 := by omega
    rw [none, pow_zero, div_one, ← zpow_natCast, Int.toNat_of_nonneg up]
  · have none : e.toNat = 0 := by omega
    rw [none, pow_zero, one_div, ← zpow_natCast, Int.toNat_of_nonneg (by omega), zpow_neg, inv_inv]

namespace Decimal

/-- `x` is less than `y`, or equal to it where bounds count as inside. -/
def Below (closed : Bool) (x y : ℚ) : Prop := if closed then x ≤ y else x < y

section
variable {closed : Bool} {x y z : ℚ}

private theorem Below.le (below : Below closed x y) : x ≤ y := by
  cases closed with
  | false => exact le_of_lt below
  | true => exact below

theorem below_of_lt (less : x < y) : Below closed x y := by
  cases closed with
  | false => exact less
  | true => exact less.le

private theorem Below.le_trans (le : x ≤ y) (below : Below closed y z) : Below closed x z := by
  cases closed with
  | false => exact lt_of_le_of_lt le below
  | true => exact le.trans below

private theorem below_mul_iff {s : ℚ} (positive : 0 < s) : Below closed (x * s) (y * s) ↔ Below closed x y := by
  cases closed with
  | false => exact mul_lt_mul_iff_left₀ positive
  | true => exact mul_le_mul_iff_left₀ positive

end
end Decimal
open Decimal

private theorem roundDiv_eq {num den k : ℕ} (positive : 0 < den)
    (low : Below (k % 2 = 0) (k - 1 / 2) (num / den)) (high : Below (k % 2 = 0) (num / den) (k + 1 / 2)) :
    roundDiv num den = k := by
  have positive' : (0 : ℚ) < den := Nat.cast_pos.mpr positive
  have quotient : (num / den : ℚ) * den = num := div_mul_cancel₀ _ positive'.ne'
  rw [← below_mul_iff positive', quotient] at low high
  have upper : roundDiv num den ≤ k := by
    rw [roundDiv_le_iff positive]
    by_cases even : k % 2 = 0
    · have most : 2 * num ≤ (2 * k + 1) * den := by
        have most := high.le
        qify
        linarith
      rcases Nat.lt_or_eq_of_le most with less | same
      · exact .inl less
      · exact .inr ⟨same, even⟩
    · left
      simp only [Below, even, decide_false, Bool.false_eq_true, if_false] at high
      qify
      linarith
  -- Rounding to one less needs a quotient below the middle, or in the middle if that one is even.
  have lower : k ≤ roundDiv num den := by
    cases k with
    | zero => exact Nat.zero_le _
    | succ j =>
      by_contra less
      have atMost := (roundDiv_le_iff positive num j).mp (by omega)
      push_cast at low
      rcases atMost with before | ⟨middle, even⟩
      · have least := low.le
        qify at before
        linarith
      · have odd : ¬(j + 1) % 2 = 0 := by omega
        simp only [Below, odd, decide_false, Bool.false_eq_true, if_false] at low
        qify at middle
        linarith
  exact Nat.le_antisymm upper lower

namespace Binary64

def value (bits : ℕ) : ℚ := (scaled bits).1 * 2 ^ (scaled bits).2

/-- A pattern as its number of units and their exponent. -/
structure Shape (bits m : ℕ) (q : ℤ) : Prop where
  whole : bits = (q + 1074).toNat * 2 ^ 52 + m
  low : -1074 ≤ q
  short : m < 2 ^ 53
  full : -1074 < q → 2 ^ 52 ≤ m

theorem shape (bits : ℕ) : Shape bits (scaled bits).1 (scaled bits).2 := by
  have top : Nat.pow 2 52 = 2 ^ 52 := rfl
  rw [scaled, top]
  split
  · constructor <;> dsimp only <;> omega
  · constructor <;> dsimp only <;> omega

theorem Shape.positive {bits m : ℕ} {q : ℤ} (shape : Shape bits m q) (some : 0 < bits) : 0 < m := by
  obtain ⟨whole, low, short, full⟩ := shape
  omega

private theorem Shape.le {bits m : ℕ} {q : ℤ} (shape : Shape bits m q) (finite : bits < infinityBits) :
    q ≤ 971 := by
  have top : infinityBits = 2047 * 2 ^ 52 := rfl
  obtain ⟨whole, low, short, full⟩ := shape
  omega

/-- A number with fewer bits than a double that is half a unit off is closely below the double, which is a power of
two. -/
private theorem Shape.power {bits m : ℕ} {q : ℤ} {x : ℚ} (shape : Shape bits m q) (above : -1074 < q)
    (low : (m - 1 / 2 : ℚ) ≤ x) (less : x < 2 ^ 52) : m = 2 ^ 52 ∧ 2 ^ 53 ≤ bits := by
  have most : (m : ℚ) < 2 ^ 52 + 1 := by linarith
  have most : m < 2 ^ 52 + 1 := by exact_mod_cast most
  have whole := shape.whole
  have full := shape.full above
  omega

end Binary64

namespace Decimal
open Binary64

/-! ## The interval of a double -/

def Neighbourhood.Holds (n : Neighbourhood) (v : ℚ) : Prop :=
  Below n.closed (n.low / n.den) v ∧ Below n.closed v (n.high / n.den)

/-- How many quarters of a unit of a double its interval extends below. -/
def margin (bits : ℕ) : ℕ := if (scaled bits).1 = 2 ^ 52 ∧ 2 ^ 53 ≤ bits then 1 else 2

private theorem margin_le (bits : ℕ) : margin bits ≤ 2 := by
  unfold margin
  split <;> omega

theorem Neighbourhood.den_pos (bits : ℕ) : 0 < (Neighbourhood.of bits).den := Nat.two_pow_pos _

private theorem Neighbourhood.closed_eq (bits : ℕ) :
    (Neighbourhood.of bits).closed = decide ((scaled bits).1 % 2 = 0) := rfl

private theorem quarter (q : ℤ) : (2 : ℚ) ^ (q - 2).toNat / 2 ^ (2 - q).toNat = 2 ^ q / 4 := by
  rw [← neg_sub q 2, pow_toNat_div, zpow_sub₀ (by norm_num)]
  norm_num

theorem Neighbourhood.value_div (bits : ℕ) :
    ((Neighbourhood.of bits).value / (Neighbourhood.of bits).den : ℚ) = Binary64.value bits := by
  have unit := quarter (scaled bits).2
  unfold Neighbourhood.of Binary64.value
  simp only [Nat.pow_eq, Nat.cast_mul, Nat.cast_ofNat, Nat.cast_pow]
  rw [mul_div_assoc, unit]
  ring

theorem Neighbourhood.high_div (bits : ℕ) :
    ((Neighbourhood.of bits).high / (Neighbourhood.of bits).den : ℚ) =
      ((scaled bits).1 + 1 / 2) * 2 ^ (scaled bits).2 := by
  have unit := quarter (scaled bits).2
  unfold Neighbourhood.of
  simp only [Nat.pow_eq, Nat.cast_mul, Nat.cast_add, Nat.cast_ofNat, Nat.cast_pow]
  rw [mul_div_assoc, unit]
  ring

theorem Neighbourhood.low_div {bits : ℕ} (some : 0 < bits) :
    ((Neighbourhood.of bits).low / (Neighbourhood.of bits).den : ℚ) =
      ((scaled bits).1 - margin bits / 4) * 2 ^ (scaled bits).2 := by
  have unit := quarter (scaled bits).2
  have positive := (shape bits).positive some
  have few := margin_le bits
  have low : (Neighbourhood.of bits).low =
      (4 * (scaled bits).1 - margin bits) * 2 ^ ((scaled bits).2 - 2).toNat := rfl
  have den : (Neighbourhood.of bits).den = 2 ^ (2 - (scaled bits).2).toNat := rfl
  rw [low, den, Nat.cast_mul, Nat.cast_sub (by omega)]
  push_cast
  rw [mul_div_assoc, unit]
  ring

private theorem holds_iff {bits : ℕ} (some : 0 < bits) (x : ℚ) :
    (Neighbourhood.of bits).Holds (x * 2 ^ (scaled bits).2) ↔
      Below ((scaled bits).1 % 2 = 0) ((scaled bits).1 - margin bits / 4) x ∧
        Below ((scaled bits).1 % 2 = 0) x ((scaled bits).1 + 1 / 2) := by
  have positive : (0 : ℚ) < 2 ^ (scaled bits).2 := by positivity
  rw [Neighbourhood.Holds, Neighbourhood.low_div some, Neighbourhood.high_div,
    below_mul_iff positive, below_mul_iff positive, Neighbourhood.closed_eq]

/-! ## The nearest double -/

variable {num den : ℕ}

private theorem ratio_bounds (some : 0 < num) (positive : 0 < den) :
    (2 : ℚ) ^ ((num.log2 : ℤ) - den.log2 - 1) ≤ num / den ∧
      (num / den : ℚ) < 2 ^ ((num.log2 : ℤ) - den.log2 + 1) := by
  have positive' : (0 : ℚ) < den := Nat.cast_pos.mpr positive
  have least (n : ℕ) (some : 0 < n) : (2 : ℚ) ^ (n.log2 : ℤ) ≤ n := by
    rw [zpow_natCast]
    exact_mod_cast Nat.log2_self_le (Nat.ne_of_gt some)
  have most (n : ℕ) : (n : ℚ) < 2 ^ (n.log2 + 1 : ℤ) := by
    exact_mod_cast Nat.lt_log2_self (n := n)
  constructor
  · rw [le_div_iff₀ positive']
    calc (2 : ℚ) ^ ((num.log2 : ℤ) - den.log2 - 1) * den
        ≤ 2 ^ ((num.log2 : ℤ) - den.log2 - 1) * 2 ^ (den.log2 + 1 : ℤ) := by
          gcongr
          exact (most den).le
      _ = 2 ^ (num.log2 : ℤ) := by
          rw [← zpow_add₀ (by norm_num)]
          congr 1
          ring
      _ ≤ num := least num some
  · rw [div_lt_iff₀ positive']
    calc (num : ℚ) < 2 ^ (num.log2 + 1 : ℤ) := most num
      _ = 2 ^ ((num.log2 : ℤ) - den.log2 + 1) * 2 ^ (den.log2 : ℤ) := by
          rw [← zpow_add₀ (by norm_num)]
          congr 1
          ring
      _ ≤ 2 ^ ((num.log2 : ℤ) - den.log2 + 1) * den := by
          gcongr
          exact least den positive

private theorem unitExponent_spec (some : 0 < num) (positive : 0 < den) :
    -1074 ≤ unitExponent num den ∧ (num / den : ℚ) < 2 ^ (53 + unitExponent num den) ∧
      (-1074 < unitExponent num den → (2 : ℚ) ^ (52 + unitExponent num den) ≤ num / den) := by
  obtain ⟨least, most⟩ := ratio_bounds some positive
  have positive' : (0 : ℚ) < den := Nat.cast_pos.mpr positive
  unfold unitExponent
  dsimp only
  generalize split : (num.log2 : ℤ) - den.log2 - 53 = low
  have fits : num * Nat.pow 2 (-(low + 1)).toNat < Nat.pow 2 52 * (den * Nat.pow 2 (low + 1).toNat) ↔
      (num / den : ℚ) < 2 ^ (53 + low) := by
    have power : (2 : ℚ) ^ (53 + low) = 2 ^ 52 * (2 ^ (low + 1).toNat / 2 ^ (-(low + 1)).toNat) := by
      rw [pow_toNat_div, ← zpow_natCast, ← zpow_add₀ (by norm_num)]
      congr 1
      push_cast
      ring
    rw [power, ← mul_div_assoc, div_lt_div_iff₀ positive' (by positivity)]
    simp only [Nat.pow_eq]
    qify
    rw [mul_assoc, mul_comm (den : ℚ)]
  have capped {e : ℤ} (least : (2 : ℚ) ^ (52 + e) ≤ num / den) (most : (num / den : ℚ) < 2 ^ (53 + e)) :
      -1074 ≤ max (-1074) e ∧ (num / den : ℚ) < 2 ^ (53 + max (-1074) e) ∧
        (-1074 < max (-1074) e → (2 : ℚ) ^ (52 + max (-1074) e) ≤ num / den) := by
    refine ⟨le_max_left _ _, lt_of_lt_of_le most ?_, fun above => ?_⟩
    · exact zpow_le_zpow_right₀ (by norm_num) (by omega)
    · rwa [max_eq_right (by omega)]
  have first : (num.log2 : ℤ) - den.log2 - 1 = 52 + low := by omega
  have last : (num.log2 : ℤ) - den.log2 + 1 = 53 + (low + 1) := by omega
  rw [first] at least
  rw [last] at most
  -- The lengths of both numbers leave two exponents to choose from.
  by_cases less : (num / den : ℚ) < 2 ^ (53 + low)
  · rw [if_pos (fits.mpr less)]
    exact capped least less
  · rw [if_neg (mt fits.mp less)]
    have reached : (2 : ℚ) ^ (52 + (low + 1)) ≤ num / den := by
      rw [← add_assoc, add_right_comm]
      exact not_lt.mp less
    exact capped reached most

/-- The unit of a ratio is the only one with which the mantissa has as many bits. -/
private theorem unitExponent_eq {e : ℤ} {x : ℚ} (some : 0 < num) (positive : 0 < den)
    (ratio : (num / den : ℚ) = x * 2 ^ e) (low : -1074 ≤ e) (short : x < 2 ^ 53)
    (full : -1074 < e → 2 ^ 52 ≤ x) : unitExponent num den = e := by
  obtain ⟨low', less', full'⟩ := unitExponent_spec some positive
  have less : (num / den : ℚ) < 2 ^ (53 + e) := by
    rw [ratio, zpow_add₀ (by norm_num)]
    gcongr
    exact short
  have reached (above : -1074 < e) : (2 : ℚ) ^ (52 + e) ≤ num / den := by
    rw [ratio, zpow_add₀ (by norm_num)]
    gcongr
    exact full above
  have apart {a b : ℤ} (before : a < b) (less : (num / den : ℚ) < 2 ^ (53 + a)) :
      ¬(2 : ℚ) ^ (52 + b) ≤ num / den := by
    have larger : (2 : ℚ) ^ (53 + a) ≤ 2 ^ (52 + b) := zpow_le_zpow_right₀ (by norm_num) (by omega)
    exact not_le_of_gt (lt_of_lt_of_le less larger)
  rcases Int.lt_trichotomy (unitExponent num den) e with before | same | after
  · exact absurd (reached (by omega)) (apart before less')
  · exact same
  · exact absurd (full' (by omega)) (apart after less)

private theorem nearestRatio_of_mantissa {mantissa : ℕ} {e : ℤ} {x : ℚ} (some : 0 < num) (positive : 0 < den)
    (ratio : (num / den : ℚ) = x * 2 ^ e) (unit : unitExponent num den = e)
    (low : Below (mantissa % 2 = 0) (mantissa - 1 / 2) x)
    (high : Below (mantissa % 2 = 0) x (mantissa + 1 / 2)) :
    nearestRatio num den = min infinityBits ((e + 1074).toNat * 2 ^ 52 + mantissa) := by
  have quotient : ((num * Nat.pow 2 (-e).toNat : ℕ) : ℚ) / (den * Nat.pow 2 e.toNat : ℕ) = x := by
    have powers := pow_toNat_div 2 (-e)
    rw [neg_neg] at powers
    push_cast [Nat.pow_eq]
    rw [mul_div_mul_comm, powers, ratio, mul_assoc, ← zpow_add₀ (by norm_num), add_neg_cancel, zpow_zero,
      mul_one]
  have positive' : 0 < den * Nat.pow 2 e.toNat := Nat.mul_pos positive (Nat.two_pow_pos _)
  rw [nearestRatio, if_neg some.ne', unit]
  dsimp only
  rw [roundDiv_eq positive' (quotient ▸ low) (quotient ▸ high)]
  rfl

/-- A double is the one nearest to all numbers in its interval. -/
theorem nearestRatio_eq {bits : ℕ} (some : 0 < bits) (finite : bits < infinityBits) (positive : 0 < den)
    (holds : (Neighbourhood.of bits).Holds (num / den)) : nearestRatio num den = bits := by
  have few : (margin bits : ℚ) ≤ 2 := by exact_mod_cast margin_le bits
  have tight : (scaled bits).1 = 2 ^ 52 ∧ 2 ^ 53 ≤ bits → margin bits = 1 := fun power => if_pos power
  have shape := shape bits
  obtain ⟨x, ratio⟩ : ∃ x, (num / den : ℚ) = x * 2 ^ (scaled bits).2 :=
    ⟨num / den / 2 ^ (scaled bits).2, (div_mul_cancel₀ _ (by positivity)).symm⟩
  rw [ratio, holds_iff some] at holds
  generalize (scaled bits).1 = m at *
  generalize (scaled bits).2 = q at *
  obtain ⟨low, high⟩ := holds
  have least : (1 : ℚ) ≤ m := by exact_mod_cast shape.positive some
  have short : (m : ℚ) + 1 ≤ 2 ^ 53 := by exact_mod_cast shape.short
  have low_le := low.le
  have high_le := high.le
  have half : (m - 1 / 2 : ℚ) ≤ m - margin bits / 4 := by linarith
  have some' : 0 < num := by
    have above : (0 : ℚ) < num / den := by
      rw [ratio]
      apply mul_pos _ (by positivity)
      linarith
    exact Nat.pos_of_ne_zero fun none => by simp [none] at above
  by_cases whole : -1074 < q → (2 : ℚ) ^ 52 ≤ x
  · have unit := unitExponent_eq some' positive ratio shape.low (by linarith) whole
    rw [nearestRatio_of_mantissa some' positive ratio unit (low.le_trans half) high, ← shape.whole]
    exact min_eq_right finite.le
  · -- Below the power of two the units are half as large, and the mantissa is rounded up to one bit more.
    push Not at whole
    obtain ⟨above, less⟩ := whole
    have power := shape.power above (half.trans low_le) less
    have close : (2 : ℚ) ^ 52 - 1 / 4 ≤ x := by
      rw [power.1, tight power] at low_le
      push_cast at low_le
      exact low_le
    have smaller : (num / den : ℚ) = 2 * x * 2 ^ (q - 1) := by
      rw [ratio, zpow_sub_one₀ (by norm_num)]
      ring
    have unit := unitExponent_eq some' positive smaller (by omega) (by linarith) fun _ => by linarith
    have low' : Below ((2 ^ 53) % 2 = 0) (((2 ^ 53 : ℕ) : ℚ) - 1 / 2) (2 * x) := by
      change ((2 ^ 53 : ℕ) : ℚ) - 1 / 2 ≤ 2 * x
      push_cast
      linarith
    have high' : Below ((2 ^ 53) % 2 = 0) (2 * x) (((2 ^ 53 : ℕ) : ℚ) + 1 / 2) := by
      apply below_of_lt
      push_cast
      linarith
    have carried : (q - 1 + 1074).toNat * 2 ^ 52 + 2 ^ 53 = bits := by
      have whole := shape.whole
      omega
    rw [nearestRatio_of_mantissa some' positive smaller unit low' high', carried]
    exact min_eq_right finite.le

/-! ## The double nearest to a decimal -/

private theorem Neighbourhood.Holds.bounds {bits : ℕ} {v : ℚ} (some : 0 < bits) (finite : bits < infinityBits)
    (holds : (Neighbourhood.of bits).Holds v) : (2 : ℚ) ^ (-1075 : ℤ) ≤ v ∧ v < 2 ^ (1024 : ℤ) := by
  have few : (margin bits : ℚ) ≤ 2 := by exact_mod_cast margin_le bits
  have shape := shape bits
  have least : (1 : ℚ) ≤ (scaled bits).1 := by exact_mod_cast shape.positive some
  have short : ((scaled bits).1 : ℚ) + 1 ≤ 2 ^ 53 := by exact_mod_cast shape.short
  obtain ⟨low, high⟩ := holds
  rw [Neighbourhood.low_div some] at low
  rw [Neighbourhood.high_div] at high
  constructor
  · calc (2 : ℚ) ^ (-1075 : ℤ) = 2 ^ (-1074 : ℤ) * 2⁻¹ := zpow_sub_one₀ two_ne_zero (-1074)
      _ = 1 / 2 * 2 ^ (-1074 : ℤ) := by ring
      _ ≤ ((scaled bits).1 - margin bits / 4) * 2 ^ (scaled bits).2 := by
        gcongr
        · linarith
        · linarith
        · norm_num
        · exact shape.low
      _ ≤ v := low.le
  · calc v ≤ ((scaled bits).1 + 1 / 2) * 2 ^ (scaled bits).2 := high.le
      _ ≤ ((scaled bits).1 + 1 / 2) * 2 ^ (971 : ℤ) := by
        gcongr
        · norm_num
        · exact shape.le finite
      _ < 2 ^ 53 * 2 ^ (971 : ℤ) := by
        gcongr
        linarith
      _ = 2 ^ (1024 : ℤ) := by
        rw [← zpow_natCast, ← zpow_add₀ two_ne_zero]
        congr 1

variable {m : ℕ} {e : ℤ}

private theorem two_pow_lt_of_huge (some : 0 < m) (huge : 400 ≤ e) : (2 : ℚ) ^ (1024 : ℤ) < m * 10 ^ e := by
  have one : (1 : ℚ) ≤ m := by exact_mod_cast some
  calc (2 : ℚ) ^ (1024 : ℤ) < 2 ^ (3 * 400 : ℤ) := zpow_lt_zpow_right₀ one_lt_two (by norm_num)
    _ = (2 ^ (3 : ℤ)) ^ (400 : ℤ) := zpow_mul 2 3 400
    _ ≤ 10 ^ (400 : ℤ) := zpow_le_zpow_left₀ (by norm_num) (by norm_num) (by norm_num)
    _ = 1 * 10 ^ (400 : ℤ) := (one_mul _).symm
    _ ≤ m * 10 ^ e := by
      gcongr
      norm_num

private theorem lt_two_pow_of_tiny {places : ℕ} (tiny : m.log2 + 1081 ≤ 3 * places) :
    (m / 10 ^ places : ℚ) < 2 ^ (-1075 : ℤ) := by
  have bits : (m : ℚ) < 2 ^ (m.log2 + 1) := by exact_mod_cast Nat.lt_log2_self (n := m)
  calc (m / 10 ^ places : ℚ) < 2 ^ (m.log2 + 1) / 10 ^ places := by gcongr
    _ ≤ 2 ^ (m.log2 + 1) / (2 ^ 3) ^ places := by
      gcongr
      norm_num
    _ = 2 ^ ((m.log2 + 1 : ℕ) - (3 * places : ℕ) : ℤ) := by
      rw [← pow_mul, zpow_sub₀ two_ne_zero, zpow_natCast, zpow_natCast]
    _ ≤ 2 ^ (-1075 : ℤ) := zpow_le_zpow_right₀ one_le_two (by omega)

/-- Decimals in the interval of a double read as it. -/
theorem nearest_eq {bits : ℕ} (some : 0 < bits) (finite : bits < infinityBits)
    (holds : (Neighbourhood.of bits).Holds (m * 10 ^ e)) : nearest m e = bits := by
  obtain ⟨least, most⟩ := holds.bounds some finite
  have some' : 0 < m := by
    apply Nat.pos_of_ne_zero
    rintro rfl
    rw [Nat.cast_zero, zero_mul] at least
    exact absurd least (not_le_of_gt (by positivity))
  unfold nearest
  rw [if_neg some'.ne', if_neg fun huge => lt_asymm most (two_pow_lt_of_huge some' huge)]
  split
  · next up =>
    apply nearestRatio_eq some finite Nat.one_pos
    have power : (10 : ℚ) ^ e = 10 ^ e.toNat := by rw [← zpow_natCast, Int.toNat_of_nonneg up]
    push_cast [Nat.pow_eq]
    rwa [div_one, ← power]
  · next down =>
    have power : (10 : ℚ) ^ e = (10 ^ (-e).toNat)⁻¹ := by
      rw [← zpow_natCast, Int.toNat_of_nonneg (by omega), zpow_neg, inv_inv]
    rw [power, ← div_eq_mul_inv] at holds least
    dsimp only
    rw [if_neg fun tiny => not_lt_of_ge least (lt_two_pow_of_tiny tiny)]
    apply nearestRatio_eq some finite (Nat.pow_pos (by norm_num))
    push_cast [Nat.pow_eq]
    exact holds

end Decimal
end Calorimetry
