import Calorimetry.Rounding
import Calorimetry.Scalar.Binary64

/-! The double nearest to a decimal number, computed on naturals. -/

namespace Calorimetry.Decimal

/-- Largest `q` for which `num / den` holds `2 ^ 52` units of `2 ^ q`, but no less than the unit of
the smallest doubles. -/
def unitExponent (num den : Nat) : Int :=
  let low : Int := (num.log2 : Int) - den.log2 - 53
  let fits := num * Nat.pow 2 (-(low + 1)).toNat < Nat.pow 2 52 * (den * Nat.pow 2 (low + 1).toNat)
  max (-1074) (if fits then low else low + 1)

/-- Pattern of the double nearest to `num / den`, a half going to the even one; from half a unit
above the largest double on it is that of infinity. -/
def nearestRatio (num den : Nat) : Nat :=
  if num = 0 then 0
  else
    let q := unitExponent num den
    let mantissa := roundDiv (num * Nat.pow 2 (-q).toNat) (den * Nat.pow 2 q.toNat)
    min Binary64.infinityBits ((q + 1074).toNat * Nat.pow 2 52 + mantissa)

/-- Pattern of the double nearest to `m * 10 ^ e`. Far outside the range of doubles the powers of
ten are not worked out. -/
def nearest (m : Nat) (e : Int) : Nat :=
  if m = 0 then 0
  else if 400 ≤ e then Binary64.infinityBits
  else if 0 ≤ e then nearestRatio (m * Nat.pow 10 e.toNat) 1
  else
    let places := (-e).toNat
    if m.log2 + 1081 ≤ 3 * places then 0 else nearestRatio m (Nat.pow 10 places)

end Calorimetry.Decimal
