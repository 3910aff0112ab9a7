/-! Division of naturals to the nearest whole number. -/

namespace Calorimetry

/-- The whole number nearest to `num / den`; a half goes to the even neighbour. -/
def roundDiv (num den : Nat) : Nat :=
  let quotient := num / den
  let twice := 2 * (num % den)
  if twice < den then quotient
  else if den < twice then quotient + 1
  else quotient + quotient % 2

def roundScaled (m base : Nat) (e : Int) (den : Nat) : Nat :=
  if 0 ≤ e then roundDiv (m * base.pow e.toNat) den else roundDiv m (den * base.pow (-e).toNat)

end Calorimetry
