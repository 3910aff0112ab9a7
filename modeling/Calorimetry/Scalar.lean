/-! Arithmetic of readings. Detection, fitting, calibration and simulation are written once over
`Scalar`; the meter runs on doubles, and any other interpretation of the operations (exact reals,
an arbitrary one) can be put in their place. -/

namespace Calorimetry

/-- The operations that the meter performs on readings. Comparisons answer `Bool`, because a
comparison with an undefined value has to come out false, and `emptySum` is apart from `0`,
because the sum of no doubles is a negative zero. -/
class Scalar (α : Type) extends Zero α, Add α, Sub α, Mul α, Div α, NatCast α, OfScientific α where
  emptySum : α
  abs : α → α
  sqrt : α → α
  sin : α → α
  cos : α → α
  lt : α → α → Bool
  le : α → α → Bool
  eq : α → α → Bool
  isFinite : α → Bool
  /-- A total order on all values, undefined ones included. -/
  order : α → α → Ordering

namespace Scalar
variable {α : Type} [Scalar α]

/-- Left-to-right sum of the values of `f`. -/
def sumOf {β : Type} (f : β → α) (xs : List β) : α := xs.foldl (fun s x => s + f x) emptySum

def sum (xs : List α) : α := sumOf id xs

/-- Finite and above zero. -/
def isPositive (x : α) : Bool := isFinite x && lt 0 x

/-- Finite and not below zero. -/
def isNonnegative (x : α) : Bool := isFinite x && le 0 x

end Scalar
end Calorimetry
