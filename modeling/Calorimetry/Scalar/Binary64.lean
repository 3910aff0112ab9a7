import Calorimetry.Scalar

/-! Doubles as readings. The total order is that of the bit patterns: a negative value comes before
a positive one, so negative zero before zero, and undefined values lie at the two ends. -/

namespace Calorimetry.Binary64

def magnitude (x : Float) : Nat := x.toBits.toNat % Nat.pow 2 63

def isNegative (x : Float) : Bool := Nat.pow 2 63 ≤ x.toBits.toNat

/-- Position in the total order; negative patterns count down from -1. -/
def rank (x : Float) : Int :=
  if isNegative x then -1 - (magnitude x : Int) else magnitude x

def ofMagnitude (negative : Bool) (bits : Nat) : Float :=
  Float.ofBits (UInt64.ofNat (if negative then Nat.pow 2 63 + bits else bits))

/-- Pattern of infinity; a larger one is no number, a smaller one is finite. -/
def infinityBits : Nat := 2047 * Nat.pow 2 52

/-- `(m, e)` such that a pattern of a finite double stands for `m * 2 ^ e`. -/
def scaled (bits : Nat) : Nat × Int :=
  let exponent : Nat := bits / Nat.pow 2 52
  if exponent = 0 then (bits, -1074) else (Nat.pow 2 52 + bits % Nat.pow 2 52, (exponent : Int) - 1075)

/-- The nearest double. Naturals of a machine word, which counts and times are, have a conversion
of their own. -/
def ofNat (n : Nat) : Float := if n < Nat.pow 2 64 then n.toUInt64.toFloat else Float.ofNat n

instance : Scalar Float where
  zero := 0.0
  natCast := ofNat
  emptySum := -0.0
  abs := Float.abs
  sqrt := Float.sqrt
  sin := Float.sin
  cos := Float.cos
  lt x y := x < y
  le x y := x ≤ y
  eq x y := x == y
  isFinite := Float.isFinite
  order x y := compare (rank x) (rank y)

end Calorimetry.Binary64
