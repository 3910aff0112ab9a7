import Calorimetry.Scalar.Binary64

/-! The shortest decimal that reads back as the same double. For one digit, then two and so on, the
two neighbours of the value among decimals of so many digits are tried; if both read back the
nearer one is taken. -/

namespace Calorimetry.Decimal

/-- A decimal number `digits * 10 ^ exponent`. -/
structure Digits where
  digits : Nat
  exponent : Int
  deriving DecidableEq

/-- The value of a double and the bounds of the interval of numbers that read as it, all over
`den`. -/
structure Neighbourhood where
  low : Nat
  value : Nat
  high : Nat
  den : Nat
  /-- Whether the bounds themselves read as the double. -/
  closed : Bool

/-- In quarters of a unit the bounds lie two away, and one below a power of two. -/
def Neighbourhood.of (bits : Nat) : Neighbourhood :=
  let (m, q) := Binary64.scaled bits
  let below := if m = Nat.pow 2 52 ∧ Nat.pow 2 53 ≤ bits then 1 else 2
  let scale := Nat.pow 2 (q - 2).toNat
  ⟨(4 * m - below) * scale, 4 * m * scale, (4 * m + 2) * scale, Nat.pow 2 (2 - q).toNat, m % 2 = 0⟩

def Neighbourhood.contains (n : Neighbourhood) (num den : Nat) : Bool :=
  let x := num * n.den
  if n.closed then n.low * den ≤ x && x ≤ n.high * den else n.low * den < x && x < n.high * den

def digitCount (n : Nat) : Nat := (Nat.toDigits 10 n).length

/-- Exponent of the leading digit of `num / den`. A reciprocal of a power of ten other than one
does not occur. -/
def leadingExponent (num den : Nat) : Int :=
  if den ≤ num then (digitCount (num / den) : Int) - 1 else -(digitCount (den / num) : Int)

inductive Tie where
  | toEven
  | up
  deriving DecidableEq

/-- The neighbour of the value among multiples of `10 ^ exponent` that reads back, if any. -/
def Neighbourhood.atExponent (n : Neighbourhood) (tie : Tie) (exponent : Int) : Option Nat :=
  let up := Nat.pow 10 exponent.toNat
  let down := Nat.pow 10 (-exponent).toNat
  let num := n.value * down
  let den := n.den * up
  let floor := num / den
  let twice := 2 * (num % den)
  let preferUpper := den < twice || (twice = den && (tie = .up || floor % 2 = 1))
  match n.contains (floor * up) down, n.contains ((floor + 1) * up) down with
  | true, true => some (if preferUpper then floor + 1 else floor)
  | true, false => some floor
  | false, true => some (floor + 1)
  | false, false => none

/-- Seventeen digits are always enough. -/
def shortest (tie : Tie) (bits : Nat) : Digits :=
  let n := Neighbourhood.of bits
  let leading := leadingExponent n.value n.den
  let tried := (List.range 17).findSome? fun (k : Nat) =>
    (n.atExponent tie (leading - k)).map fun digits => Digits.mk digits (leading - k)
  match tried with
  | some ⟨10, e⟩ => ⟨1, e + 1⟩
  | some d => d
  | none => ⟨0, 0⟩

end Calorimetry.Decimal
