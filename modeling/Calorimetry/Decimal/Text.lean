import Calorimetry.Decimal.Nearest
import Calorimetry.Decimal.Shortest

/-! Numbers as text: reading, the shortest text in the layout of a format, and text with a fixed
number of places. -/

namespace Calorimetry.Decimal

structure Layout where
  /-- Smallest and largest exponent of the leading digit that are written without an exponent. -/
  positional : Int × Int
  wholePoint : Bool
  /-- Sign of an exponent that is not negative. -/
  exponentSign : List Char
  undefined : List Char
  infinity : List Char
  negativeInfinity : List Char
  tie : Tie

def zeros (n : Nat) : List Char := List.replicate n '0'

/-- `digits * 10 ^ exponent` written out in full. -/
def positionalText (l : Layout) (d : Digits) : List Char :=
  let cs := Nat.toDigits 10 d.digits
  if 0 ≤ d.exponent then
    cs ++ zeros d.exponent.toNat ++ if l.wholePoint then ['.', '0'] else []
  else
    let places := (-d.exponent).toNat
    if places < cs.length then cs.take (cs.length - places) ++ '.' :: cs.drop (cs.length - places)
    else '0' :: '.' :: zeros (places - cs.length) ++ cs

/-- One digit, a point before further digits, and the exponent of the first. -/
def exponentText (l : Layout) (d : Digits) : List Char :=
  let cs := Nat.toDigits 10 d.digits
  let lead : Int := d.exponent + cs.length - 1
  let point := if cs.tail.isEmpty then [] else '.' :: cs.tail
  let sign := if lead < 0 then ['-'] else l.exponentSign
  cs.take 1 ++ point ++ 'e' :: sign ++ Nat.toDigits 10 lead.natAbs

def magnitudeText (l : Layout) (bits : Nat) : List Char :=
  if bits = 0 then '0' :: if l.wholePoint then ['.', '0'] else []
  else
    let d := shortest l.tie bits
    let lead : Int := d.exponent + (digitCount d.digits : Int) - 1
    if l.positional.1 ≤ lead && lead ≤ l.positional.2 then positionalText l d
    else exponentText l d

def Layout.write (l : Layout) (x : Float) : List Char :=
  let bits := Binary64.magnitude x
  if Binary64.infinityBits < bits then l.undefined
  else if bits = Binary64.infinityBits then
    if Binary64.isNegative x then l.negativeInfinity else l.infinity
  else (if Binary64.isNegative x then ['-'] else []) ++ magnitudeText l bits

/-- A number in a sentence is written out in full. -/
def prose : Layout where
  positional := (-400, 400)
  wholePoint := false
  exponentSign := []
  undefined := "NaN".toList
  infinity := "inf".toList
  negativeInfinity := "-inf".toList
  tie := .up

/-- The exact value with `places` places, a half going to the even neighbour; the sign stays also
on zeros. -/
def fixed (places : Nat) (x : Float) : List Char :=
  let bits := Binary64.magnitude x
  if Binary64.infinityBits ≤ bits then prose.write x
  else
    let (m, q) := Binary64.scaled bits
    let units := roundScaled (m * Nat.pow 10 places) 2 q 1
    let cs := Nat.toDigits 10 units
    let padded := zeros (places + 1 - cs.length) ++ cs
    let whole := padded.take (padded.length - places)
    let sign := if Binary64.isNegative x then ['-'] else []
    sign ++ whole ++ if places = 0 then [] else '.' :: padded.drop (padded.length - places)

def alignRight (width : Nat) (cs : List Char) : List Char :=
  List.replicate (width - cs.length) ' ' ++ cs

def spanDigits (cs : List Char) : List Char × List Char :=
  (cs.takeWhile Char.isDigit, cs.dropWhile Char.isDigit)

def valueOf (digits : List Char) : Nat :=
  digits.foldl (fun n c => 10 * n + (c.toNat - '0'.toNat)) 0

/-- An exponent after its mark: a sign, if any, and digits to the end. -/
def exponent? (cs : List Char) : Option Int :=
  let (negative, digits) : Bool × List Char := match cs with
    | '-' :: rest => (true, rest)
    | '+' :: rest => (false, rest)
    | rest => (false, rest)
  if digits.isEmpty || !digits.all Char.isDigit then none
  else
    let n : Int := valueOf digits
    some (if negative then -n else n)

/-- A number without sign: digits around an optional point, at least one, and an optional
exponent. -/
def unsigned? (cs : List Char) : Option Nat :=
  let (whole, rest) := spanDigits cs
  let (fraction, rest) := match rest with
    | '.' :: more => spanDigits more
    | rest => ([], rest)
  if whole.isEmpty && fraction.isEmpty then none
  else
    let shift : Option Int := match rest with
      | [] => some 0
      | c :: more => if c = 'e' || c = 'E' then exponent? more else none
    shift.map fun e => nearest (valueOf (whole ++ fraction)) (e - fraction.length)

/-- Names of infinity and of the undefined value in any case, or a number. -/
def magnitude? (cs : List Char) : Option Nat :=
  let lower := cs.map Char.toLower
  if lower = "inf".toList || lower = "infinity".toList then some Binary64.infinityBits
  else if lower = "nan".toList then some (Binary64.infinityBits + Nat.pow 2 51)
  else unsigned? cs

def read? (cs : List Char) : Option Float :=
  match cs with
  | '-' :: rest => (magnitude? rest).map (Binary64.ofMagnitude true)
  | '+' :: rest => (magnitude? rest).map (Binary64.ofMagnitude false)
  | _ => (magnitude? cs).map (Binary64.ofMagnitude false)

end Calorimetry.Decimal
