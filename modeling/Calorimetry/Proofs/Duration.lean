import Mathlib.Algebra.Group.Int.Defs
import Mathlib.Algebra.Group.Nat.Defs
import Calorimetry.Duration
import Calorimetry.Proofs.Scalar.Order

/-! Which numbers of seconds are times. The nearest number of nanoseconds grows with the number of seconds,
so a number is a time exactly if it is below the first one that is too long. -/

namespace Calorimetry

private theorem roundDiv_cases (num den : Nat) :
    2 * (num % den) < den ∧ roundDiv num den = num / den ∨
      den < 2 * (num % den) ∧ roundDiv num den = num / den + 1 ∨
      2 * (num % den) = den ∧ roundDiv num den = num / den + num / den % 2 := by
  rw [roundDiv]
  split
  · next less => exact .inl ⟨less, rfl⟩
  · split
    · next more => exact .inr (.inl ⟨more, rfl⟩)
    · exact .inr (.inr ⟨by omega, rfl⟩)

/-- A quotient is rounded to more than `q` if it is beyond the middle of `q` and `q + 1`, or in the middle
while `q` is odd. -/
theorem roundDiv_le_iff {den : Nat} (positive : 0 < den) (num q : Nat) :
    roundDiv num den ≤ q ↔
      2 * num < (2 * q + 1) * den ∨ 2 * num = (2 * q + 1) * den ∧ q % 2 = 0 := by
  have rounded := roundDiv_cases num den
  have rest := Nat.mod_lt num positive
  have whole := Nat.div_add_mod num den
  have middle : (2 * q + 1) * den = 2 * (den * q) + den := by
    rw [Nat.add_mul, Nat.one_mul, Nat.mul_assoc, Nat.mul_comm q]
  have gap {j k : Nat} (before : j < k) : den * j + den ≤ den * k := Nat.mul_le_mul_left den before
  rw [middle]
  rcases Nat.lt_trichotomy q (num / den) with below | same | above
  · have := gap below
    omega
  · rw [same]
    omega
  · have := gap above
    omega

private theorem roundDiv_mono {num den num' den' : Nat} (positive : 0 < den) (positive' : 0 < den')
    (le : num * den' ≤ num' * den) : roundDiv num den ≤ roundDiv num' den' := by
  have reached := (roundDiv_le_iff positive' num' (roundDiv num' den')).mp (Nat.le_refl _)
  generalize roundDiv num' den' = q at *
  rw [roundDiv_le_iff positive]
  -- Over the common denominator both are compared with the middle above `q`.
  have bound : 2 * num * den' ≤ 2 * num' * den := by
    rw [Nat.mul_assoc, Nat.mul_assoc]
    exact Nat.mul_le_mul_left 2 le
  rcases reached with below | ⟨middle, even⟩
  · left
    have less := Nat.lt_of_le_of_lt bound ((Nat.mul_lt_mul_right positive).mpr below)
    rw [Nat.mul_right_comm (2 * q + 1)] at less
    exact Nat.lt_of_mul_lt_mul_right less
  · rw [middle, Nat.mul_right_comm (2 * q + 1)] at bound
    rcases Nat.lt_or_eq_of_le (Nat.le_of_mul_le_mul_right bound positive') with less | same
    · exact .inl less
    · exact .inr ⟨same, even⟩

private theorem roundDiv_mul_right {den k : Nat} (num : Nat) (positive : 0 < den) (positive' : 0 < k) :
    roundDiv (num * k) (den * k) = roundDiv num den := by
  have same : num * k * den = num * (den * k) := by rw [Nat.mul_assoc, Nat.mul_comm k]
  have scaled := Nat.mul_pos positive positive'
  exact Nat.le_antisymm (roundDiv_mono scaled positive (Nat.le_of_eq same))
    (roundDiv_mono positive scaled (Nat.le_of_eq same.symm))

/-- With a lower bound `-k` of the exponent, all values can be given the same denominator. -/
private theorem roundScaled_eq (m k : Nat) {e : Int} (low : -(k : Int) ≤ e) :
    roundScaled m 2 e 1 = roundDiv (m * Nat.pow 2 (e + k).toNat) (Nat.pow 2 k) := by
  have pos (n : Nat) : 0 < Nat.pow 2 n := Nat.two_pow_pos n
  rw [roundScaled]
  split
  · next up =>
    have sum : (e + k).toNat = e.toNat + k := by omega
    have apart : Nat.pow 2 (e.toNat + k) = Nat.pow 2 e.toNat * Nat.pow 2 k := Nat.pow_add 2 _ _
    rw [sum, apart, ← Nat.mul_assoc, ← roundDiv_mul_right _ Nat.one_pos (pos k), Nat.one_mul]
  · next down =>
    have sum : k = (-e).toNat + (e + k).toNat := by omega
    have apart : Nat.pow 2 k = Nat.pow 2 (-e).toNat * Nat.pow 2 (e + k).toNat := by
      conv => lhs; rw [sum]
      exact Nat.pow_add 2 _ _
    rw [apart, roundDiv_mul_right _ (pos _) (pos _), Nat.one_mul]

namespace Binary64

/-- What a pattern stands for, counted in the smallest positive double. -/
def units (bits : Nat) : Nat := (scaled bits).1 * Nat.pow 2 ((scaled bits).2 + 1074).toNat

private theorem scaled_ge (bits : Nat) : -1074 ≤ (scaled bits).2 := by
  rw [scaled]
  split
  · exact Int.le_refl _
  · dsimp only
    generalize bits / Nat.pow 2 52 = exponent at *
    omega

private theorem units_eq (bits : Nat) : units bits =
    if bits / 2 ^ 52 = 0 then bits else (2 ^ 52 + bits % 2 ^ 52) * 2 ^ (bits / 2 ^ 52 - 1) := by
  have top : Nat.pow 2 52 = 2 ^ 52 := rfl
  rw [units, scaled, top]
  split
  · exact Nat.mul_one bits
  · next normal =>
    have exponent : ((bits / 2 ^ 52 : Nat) - 1075 + 1074 : Int).toNat = bits / 2 ^ 52 - 1 := by omega
    dsimp only
    rw [exponent]
    rfl

private theorem units_mono {a b : Nat} (le : a ≤ b) : units a ≤ units b := by
  have exponents : a / 2 ^ 52 ≤ b / 2 ^ 52 := Nat.div_le_div_right le
  rw [units_eq, units_eq]
  split
  · split
    · exact le
    · calc a ≤ 2 ^ 52 + b % 2 ^ 52 := by omega
        _ ≤ _ := Nat.le_mul_of_pos_right _ (Nat.two_pow_pos _)
  · next normal =>
    rw [if_neg (by omega)]
    rcases Nat.lt_or_eq_of_le exponents with before | same
    · -- Below the next exponent there is less than twice the least number with this one.
      have step : 2 ^ 53 * 2 ^ (a / 2 ^ 52 - 1) = 2 ^ 52 * 2 ^ (a / 2 ^ 52) := by
        rw [← Nat.pow_add, ← Nat.pow_add]
        congr 1
        omega
      calc (2 ^ 52 + a % 2 ^ 52) * 2 ^ (a / 2 ^ 52 - 1)
          ≤ 2 ^ 53 * 2 ^ (a / 2 ^ 52 - 1) := Nat.mul_le_mul_right _ (by omega)
        _ = 2 ^ 52 * 2 ^ (a / 2 ^ 52) := step
        _ ≤ 2 ^ 52 * 2 ^ (b / 2 ^ 52 - 1) :=
          Nat.mul_le_mul_left _ (Nat.pow_le_pow_right (by decide) (by omega))
        _ ≤ (2 ^ 52 + b % 2 ^ 52) * 2 ^ (b / 2 ^ 52 - 1) :=
          Nat.mul_le_mul_right _ (Nat.le_add_right _ _)
    · rw [same]
      exact Nat.mul_le_mul_right _ (by omega)

end Binary64

namespace Duration
open Binary64

def nearest (bits : Nat) : Duration :=
  roundScaled ((scaled bits).1 * perSecond) 2 (scaled bits).2 1

private theorem nearest_mono {a b : Nat} (le : a ≤ b) : nearest a ≤ nearest b := by
  obtain ⟨k, least⟩ : ∃ k : Nat, (k : Int) = 1074 := ⟨1074, rfl⟩
  have common (bits : Nat) : nearest bits = roundDiv (units bits * perSecond) (Nat.pow 2 k) := by
    have low : -(k : Int) ≤ (scaled bits).2 := by
      rw [least]
      exact scaled_ge bits
    rw [nearest, roundScaled_eq _ k low, units, Nat.mul_right_comm, least]
  have positive : 0 < Nat.pow 2 k := Nat.two_pow_pos k
  rw [common, common]
  exact roundDiv_mono positive positive
    (Nat.mul_le_mul_right _ (Nat.mul_le_mul_right _ (units_mono le)))

private theorem ofSeconds?_eq {x : Float} (nonneg : 0 ≤ x) : ofSeconds? x =
    if nearest (magnitude x) ≤ limit then some (nearest (magnitude x)) else none := by
  have not_less : ¬x < 0 := by
    intro less
    have := ((lt_iff x 0).mp less).2.2
    have := ((nonneg_iff x).mp nonneg).2
    have zero : key 0 = 0 := by decide
    omega
  rw [ofSeconds?, if_neg not_less]
  rfl

private theorem nearest_lt {x y : Float} (nonneg : 0 ≤ x) (bound : 0 ≤ y) (less : x < y) :
    nearest (magnitude x) ≤ nearest (magnitude y - 1) :=
  nearest_mono (Nat.le_pred_of_lt ((lt_iff_of_nonneg nonneg bound).mp less))

private theorem nearest_ge {x y : Float} (nonneg : 0 ≤ x) (bound : 0 ≤ y) (not_less : ¬x < y) :
    nearest (magnitude y) ≤ nearest (magnitude x) :=
  nearest_mono (Nat.le_of_not_lt fun less => not_less ((lt_iff_of_nonneg nonneg bound).mpr less))

/-- From `2 ^ 64` seconds on, a number is too long for a time. -/
theorem ofSeconds?_eq_none_iff {x : Float} (nonneg : 0 ≤ x) :
    ofSeconds? x = none ↔ ¬x < 18446744073709551616.0 := by
  have bound : (0 : Float) ≤ 18446744073709551616.0 := by decide
  rw [ofSeconds?_eq nonneg]
  by_cases less : x < 18446744073709551616.0
  · have fits : nearest (magnitude 18446744073709551616.0 - 1) ≤ limit := by decide
    rw [if_pos (Nat.le_trans (nearest_lt nonneg bound less) fits)]
    simp [less]
  · have long : limit < nearest (magnitude 18446744073709551616.0) := by decide
    rw [if_neg (Nat.not_le_of_lt (Nat.lt_of_lt_of_le long (nearest_ge nonneg bound less)))]
    simp [less]

/-- The double next to half a nanosecond lies above it, so no double makes a tie of one nanosecond and
none. -/
theorem ofSeconds?_eq_zero_iff {x : Float} (nonneg : 0 ≤ x) : ofSeconds? x = some 0 ↔ x < 5e-10 := by
  have bound : (0 : Float) ≤ 5e-10 := by decide
  rw [ofSeconds?_eq nonneg]
  by_cases less : x < 5e-10
  · have none : nearest (magnitude 5e-10 - 1) = 0 := by decide
    have zero := nearest_lt nonneg bound less
    rw [none, Nat.le_zero] at zero
    simp [less, zero]
  · have one : 0 < nearest (magnitude 5e-10) := by decide
    have positive := Nat.lt_of_lt_of_le one (nearest_ge nonneg bound less)
    simp [less, Nat.ne_of_gt positive]

theorem ofSeconds?_le_limit {x : Float} {d : Duration} (nonneg : 0 ≤ x) (time : ofSeconds? x = some d) :
    d ≤ limit := by
  rw [ofSeconds?_eq nonneg] at time
  split at time
  · next fits =>
    rw [← Option.some.inj time]
    exact fits
  · cases time

/-- What is not longer than a time is a time. -/
theorem ofSeconds?_of_not_lt {x y : Float} {d : Duration} (nonneg : 0 ≤ x) (bound : 0 ≤ y)
    (not_less : ¬y < x) (time : ofSeconds? y = some d) : ∃ c, ofSeconds? x = some c ∧ c ≤ d := by
  have shorter := nearest_ge bound nonneg not_less
  rw [ofSeconds?_eq bound] at time
  split at time
  · next fits =>
    rw [← Option.some.inj time]
    exact ⟨_, by rw [ofSeconds?_eq nonneg, if_pos (Nat.le_trans shorter fits)], shorter⟩
  · cases time

end Duration
end Calorimetry
