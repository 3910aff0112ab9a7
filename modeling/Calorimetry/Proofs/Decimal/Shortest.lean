import Calorimetry.Proofs.Decimal.Nearest
import Mathlib.Data.Nat.Cast.Order.Field

/-! The shortest digits of a double lie in its interval, so they read back as it. With seventeen digits the
decimals are closer together than the interval is wide. -/

namespace Calorimetry.Decimal
open Binary64

def Digits.value (d : Digits) : ℚ := d.digits * 10 ^ d.exponent

private theorem lt_pow_digitCount (n : ℕ) : n < 10 ^ digitCount n :=
  (Nat.length_toDigits_le_iff (by norm_num) Nat.length_toDigits_pos).mp (Nat.le_refl _)

private theorem pow_digitCount_le {n : ℕ} (some : 0 < n) : 10 ^ (digitCount n - 1) ≤ n := by
  rcases Nat.eq_zero_or_pos (digitCount n - 1) with one | more
  · rw [one]
    exact some
  · by_contra less
    have shorter : digitCount n ≤ digitCount n - 1 :=
      (Nat.length_toDigits_le_iff (by norm_num) more).mpr (not_le.mp less)
    omega

private theorem pow_leadingExponent_le {num den : ℕ} (some : 0 < num) (positive : 0 < den) :
    (10 : ℚ) ^ leadingExponent num den ≤ num / den := by
  have positive' : (0 : ℚ) < den := Nat.cast_pos.mpr positive
  unfold leadingExponent
  split
  · next large =>
    have quotient : 0 < num / den := Nat.div_pos large positive
    have count : 0 < digitCount (num / den) := Nat.length_toDigits_pos
    have power : ((digitCount (num / den) : ℤ) - 1) = (digitCount (num / den) - 1 : ℕ) := by omega
    rw [power, zpow_natCast]
    calc (10 : ℚ) ^ (digitCount (num / den) - 1) ≤ (num / den : ℕ) := by
          exact_mod_cast pow_digitCount_le quotient
      _ ≤ num / den := Nat.cast_div_le
  · next small =>
    have less : den < 10 ^ digitCount (den / num) * num :=
      (Nat.div_lt_iff_lt_mul some).mp (lt_pow_digitCount (den / num))
    have less : (den : ℚ) ≤ 10 ^ digitCount (den / num) * num := by exact_mod_cast less.le
    rw [zpow_neg, zpow_natCast, inv_le_iff_one_le_mul₀ (by positivity), div_mul_eq_mul_div,
      le_div_iff₀ positive']
    linarith

namespace Neighbourhood
variable {n : Neighbourhood} {tie : Tie} {e : ℤ}

private theorem contains_iff {num den : ℕ} (positive : 0 < n.den) (positive' : 0 < den) :
    n.contains num den = true ↔ n.Holds (num / den) := by
  have scale : (0 : ℚ) < n.den := Nat.cast_pos.mpr positive
  have scale' : (0 : ℚ) < den := Nat.cast_pos.mpr positive'
  unfold contains Holds Below
  cases n.closed with
  | false =>
    simp only [Bool.false_eq_true, if_false, Bool.and_eq_true, decide_eq_true_eq]
    rw [div_lt_div_iff₀ scale scale', div_lt_div_iff₀ scale' scale]
    norm_cast
  | true =>
    simp only [if_true, Bool.and_eq_true, decide_eq_true_eq]
    rw [div_le_div_iff₀ scale scale', div_le_div_iff₀ scale' scale]
    norm_cast

private theorem contains_decimal_iff (positive : 0 < n.den) (digits : ℕ) (e : ℤ) :
    n.contains (digits * Nat.pow 10 e.toNat) (Nat.pow 10 (-e).toNat) = true ↔
      n.Holds (digits * 10 ^ e) := by
  have down : 0 < Nat.pow 10 (-e).toNat := Nat.pow_pos (by norm_num)
  rw [contains_iff positive down, ← pow_toNat_div, ← mul_div_assoc]
  push_cast [Nat.pow_eq]
  rfl

private theorem atExponent_holds {digits : ℕ} (positive : 0 < n.den) (found : n.atExponent tie e = some digits) :
    n.Holds (digits * 10 ^ e) := by
  rw [← contains_decimal_iff positive]
  unfold atExponent at found
  dsimp only at found
  split at found
  · next lower upper =>
    cases found
    split
    · exact upper
    · exact lower
  · next lower _ =>
    cases found
    exact lower
  · next _ upper =>
    cases found
    exact upper
  · cases found

/-- Where decimals are closer together than the interval is wide, one of the neighbours of the value is inside. -/
private theorem atExponent_isSome (positive : 0 < n.den) (tie : Tie) (low : (n.low / n.den : ℚ) < n.value / n.den)
    (high : (n.value / n.den : ℚ) < n.high / n.den)
    (narrow : (10 : ℚ) ^ e < n.high / n.den - n.low / n.den) : (n.atExponent tie e).isSome := by
  have up : 0 < n.den * Nat.pow 10 e.toNat := Nat.mul_pos positive (Nat.pow_pos (by norm_num))
  have power : (0 : ℚ) < 10 ^ e := by positivity
  have quotient : ((n.value * Nat.pow 10 (-e).toNat : ℕ) / (n.den * Nat.pow 10 e.toNat : ℕ) : ℚ) * 10 ^ e =
      n.value / n.den := by
    have unit := pow_toNat_div 10 (-e)
    rw [neg_neg] at unit
    push_cast [Nat.pow_eq]
    rw [mul_div_mul_comm, unit, mul_assoc, ← zpow_add₀ (by norm_num), neg_add_cancel, zpow_zero, mul_one]
  by_contra none
  unfold atExponent at none
  dsimp only at none
  generalize n.value * Nat.pow 10 (-e).toNat = num at *
  generalize n.den * Nat.pow 10 e.toNat = den at *
  have up' : (0 : ℚ) < den := Nat.cast_pos.mpr up
  have floor_le : ((num / den : ℕ) : ℚ) * 10 ^ e ≤ n.value / n.den := by
    rw [← quotient]
    gcongr
    exact Nat.cast_div_le
  have lt_next : (n.value / n.den : ℚ) < ((num / den + 1 : ℕ) : ℚ) * 10 ^ e := by
    rw [← quotient]
    gcongr
    rw [div_lt_iff₀ up']
    exact_mod_cast Nat.lt_mul_of_div_lt (Nat.lt_succ_self _) up
  generalize num / den = floor at *
  split at none
  · simp at none
  · simp at none
  · simp at none
  · next lower upper =>
    -- With both neighbours outside the interval fits between them.
    rw [← Bool.not_eq_true, contains_decimal_iff positive] at lower upper
    have reaches : (floor : ℚ) * 10 ^ e ≤ n.low / n.den := by
      by_contra above
      exact lower ⟨below_of_lt (not_le.mp above), below_of_lt (lt_of_le_of_lt floor_le high)⟩
    apply upper
    refine ⟨below_of_lt (low.trans lt_next), below_of_lt ?_⟩
    push_cast
    linarith

end Neighbourhood

/-- Seventeen digits are closer together than the numbers that read as one double. -/
private theorem pow_lt_width {bits : ℕ} (some : 0 < bits) {e : ℤ}
    (le : (10 : ℚ) ^ e ≤ Binary64.value bits) : (10 : ℚ) ^ (e - 16) <
      (Neighbourhood.of bits).high / (Neighbourhood.of bits).den -
        (Neighbourhood.of bits).low / (Neighbourhood.of bits).den := by
  have unit : (0 : ℚ) < 2 ^ (scaled bits).2 := by positivity
  have short : ((scaled bits).1 : ℚ) < 2 ^ 53 := by exact_mod_cast (shape bits).short
  have enough : ((scaled bits).1 : ℚ) / 10 ^ 16 < 1 / 2 + margin bits / 4 := by
    unfold margin
    split
    · next power =>
      rw [power.1]
      norm_num
    · norm_num
      linarith
  rw [Neighbourhood.high_div, Neighbourhood.low_div some]
  calc (10 : ℚ) ^ (e - 16) = 10 ^ e / 10 ^ 16 := by
        rw [zpow_sub₀ (by norm_num)]
        norm_cast
    _ ≤ Binary64.value bits / 10 ^ 16 := by gcongr
    _ = (scaled bits).1 / 10 ^ 16 * 2 ^ (scaled bits).2 := by
        unfold Binary64.value
        ring
    _ < (1 / 2 + margin bits / 4) * 2 ^ (scaled bits).2 := by gcongr
    _ = _ := by ring

private theorem Neighbourhood.of_bounds {bits : ℕ} (some : 0 < bits) :
    ((Neighbourhood.of bits).low / (Neighbourhood.of bits).den : ℚ) <
        (Neighbourhood.of bits).value / (Neighbourhood.of bits).den ∧
      ((Neighbourhood.of bits).value / (Neighbourhood.of bits).den : ℚ) <
        (Neighbourhood.of bits).high / (Neighbourhood.of bits).den := by
  have unit : (0 : ℚ) < 2 ^ (scaled bits).2 := by positivity
  have below : (0 : ℚ) < margin bits := by
    unfold margin
    split <;> norm_num
  rw [Neighbourhood.value_div, Neighbourhood.high_div, Neighbourhood.low_div some, Binary64.value]
  constructor
  · gcongr
    linarith
  · gcongr
    linarith

theorem shortest_holds {bits : ℕ} (some : 0 < bits) (tie : Tie) :
    (Neighbourhood.of bits).Holds (shortest tie bits).value := by
  have positive := Neighbourhood.den_pos bits
  have value : 0 < (Neighbourhood.of bits).value :=
    Nat.mul_pos (Nat.mul_pos (by norm_num) ((shape bits).positive some)) (Nat.two_pow_pos _)
  obtain ⟨low, high⟩ := Neighbourhood.of_bounds some
  have lead := pow_leadingExponent_le value positive
  rw [Neighbourhood.value_div] at lead
  have found := Neighbourhood.atExponent_isSome positive tie low high (pow_lt_width some lead)
  unfold shortest
  dsimp only
  generalize leadingExponent (Neighbourhood.of bits).value (Neighbourhood.of bits).den = leading at *
  have holds {d : Digits} (tried : ((List.range 17).findSome? fun (k : ℕ) =>
      ((Neighbourhood.of bits).atExponent tie (leading - k)).map fun digits =>
        Digits.mk digits (leading - k)) = .some d) : (Neighbourhood.of bits).Holds d.value := by
    obtain ⟨k, _, mapped⟩ := List.exists_of_findSome?_eq_some tried
    obtain ⟨digits, at_, rfl⟩ := Option.map_eq_some_iff.mp mapped
    exact Neighbourhood.atExponent_holds positive at_
  split
  · next e tried =>
    have same : (Digits.mk 1 (e + 1)).value = (Digits.mk 10 e).value := by
      unfold Digits.value
      rw [zpow_add_one₀ (by norm_num)]
      push_cast
      ring
    rw [same]
    exact holds tried
  · next d _ tried => exact holds tried
  · next tried =>
    -- The seventeenth place has always been found.
    rw [List.findSome?_eq_none_iff] at tried
    have last := Option.map_eq_none_iff.mp (tried 16 (by simp))
    rw [Nat.cast_ofNat] at last
    rw [last] at found
    cases found

end Calorimetry.Decimal
