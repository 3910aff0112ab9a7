import Calorimetry.Rounding
import Calorimetry.Scalar.Binary64

/-! Spans of time and offsets from the start of a stream, in whole nanoseconds. The longest span
that a clock or a setting can hold is `Duration.limit`. -/

namespace Calorimetry

abbrev Duration := Nat

namespace Duration

def perSecond : Nat := Nat.pow 10 9

/-- One nanosecond short of `2 ^ 64` seconds. -/
def limit : Duration := Nat.pow 2 64 * perSecond - 1

def ofMillis (n : Nat) : Duration := n * Nat.pow 10 6

def ofSeconds (n : Nat) : Duration := n * perSecond

section
variable {α : Type} [Scalar α]

/-- Whole seconds and nanoseconds are converted apart and added. -/
def seconds (d : Duration) : α :=
  ((d / perSecond : Nat) : α) + ((d % perSecond : Nat) : α) / (perSecond : α)

def secondsBetween (start stop : Duration) : α := seconds (stop - start)

end

/-- The nearest span to a number of seconds, a half nanosecond to the even side. A negative number
has none. Nor has one too large, which infinity and an undefined value are by their pattern. -/
def ofSeconds? (x : Float) : Option Duration :=
  if x < 0 then none
  else
    let (m, e) := Binary64.scaled (Binary64.magnitude x)
    let d := roundScaled (m * perSecond) 2 e 1
    if d ≤ limit then some d else none

private def dropTrailingZeros (cs : List Char) : List Char :=
  (cs.reverse.dropWhile (· = '0')).reverse

def padded (width n : Nat) : List Char :=
  let cs := Nat.toDigits 10 n
  List.replicate (width - cs.length) '0' ++ cs

/-- `n` counted in a unit of ten to the `width` parts, without trailing zeros. -/
private def inUnit (n width : Nat) (unit : String) : String :=
  let fraction := dropTrailingZeros (padded width (n % Nat.pow 10 width))
  let point := if fraction.isEmpty then [] else '.' :: fraction
  String.ofList (Nat.toDigits 10 (n / Nat.pow 10 width) ++ point) ++ unit

/-- The text used in messages: the largest unit of which there is at least one. -/
def text (d : Duration) : String :=
  if perSecond ≤ d then inUnit d 9 "s"
  else if Nat.pow 10 6 ≤ d then inUnit d 6 "ms"
  else if 1000 ≤ d then inUnit d 3 "µs"
  else inUnit d 0 "ns"

end Duration
end Calorimetry
