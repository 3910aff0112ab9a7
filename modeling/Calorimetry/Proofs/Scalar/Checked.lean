import Calorimetry.Proofs.Scalar.Real

/-! Exact readings with an eye on division. A quotient by zero is no number here, nor is anything that is worked
out from it, so a quotient, product or sum that is a number was reached without one. -/

namespace Calorimetry

inductive CheckedReal where
  | of (x : ℝ)
  | undefined

namespace CheckedReal

def map (f : ℝ → ℝ) : CheckedReal → CheckedReal
  | of x => of (f x)
  | undefined => undefined

def combine (f : ℝ → ℝ → ℝ) : CheckedReal → CheckedReal → CheckedReal
  | of x, of y => of (f x y)
  | _, _ => undefined

noncomputable def quotient : CheckedReal → CheckedReal → CheckedReal
  | of x, of y => if y = 0 then undefined else of (x / y)
  | _, _ => undefined

/-- A comparison with what is no number comes out false. -/
def holds (r : ℝ → ℝ → Bool) : CheckedReal → CheckedReal → Bool
  | of x, of y => r x y
  | _, _ => false

noncomputable instance : Scalar CheckedReal where
  zero := of 0
  add := combine (· + ·)
  sub := combine (· - ·)
  mul := combine (· * ·)
  div := quotient
  natCast n := of n
  ofScientific mantissa negative exponent := of (OfScientific.ofScientific mantissa negative exponent)
  emptySum := of 0
  abs := map Scalar.abs
  sqrt := map Scalar.sqrt
  sin := map Scalar.sin
  cos := map Scalar.cos
  lt := holds Scalar.lt
  le := holds Scalar.le
  eq := holds Scalar.eq
  isFinite
    | of _ => true
    | undefined => false
  order
    | of x, of y => Scalar.order x y
    | of _, undefined => .lt
    | undefined, of _ => .gt
    | undefined, undefined => .eq

theorem of_div {x y : ℝ} (nonzero : y ≠ 0) : of x / of y = of (x / y) := if_neg nonzero

end CheckedReal
end Calorimetry
