import Calorimetry.Decimal.Text
import Calorimetry.Toml

/-! Reading numbers, truth values, dates and times of a TOML document. All of them are runs of
`isBare` characters, except that a blank may stand between a date and a time. -/

namespace Calorimetry.Toml

/-- Characters of numbers, truth values, dates and times. -/
def isBare (c : Char) : Bool := c.isAlphanum || ['_', '-', '+', '.', ':'].contains c

/-- Digits without the underscores between them; an underscore stands between two digits. -/
def ungroup? (isDigit : Char → Bool) : List Char → Option (List Char)
  | [] => none
  | [c] => if isDigit c then some [c] else none
  | c :: '_' :: rest => if isDigit c then (ungroup? isDigit rest).map (c :: ·) else none
  | c :: rest => if isDigit c then (ungroup? isDigit rest).map (c :: ·) else none

/-- Decimal digits that do not start with a superfluous zero. -/
def plainDigits? (cs : List Char) : Option (List Char) :=
  match ungroup? Char.isDigit cs with
  | some ('0' :: _ :: _) => none
  | digits => if cs.take 2 = ['0', '_'] then none else digits

def splitSign : List Char → Bool × List Char
  | '-' :: rest => (true, rest)
  | '+' :: rest => (false, rest)
  | cs => (false, cs)

def digitValue (c : Char) : Nat :=
  if c.isDigit then c.toNat - '0'.toNat else c.toLower.toNat - 'a'.toNat + 10

def inBase (base : Nat) (digits : List Char) : Nat :=
  digits.foldl (fun n c => base * n + digitValue c) 0

def isHexDigit (c : Char) : Bool := c.isDigit || ('a' ≤ c.toLower && c.toLower ≤ 'f')

/-- Whole numbers are those of 64 bits. -/
def integer? (cs : List Char) : Option Int :=
  let n : Option Int := match cs with
    | '0' :: 'x' :: rest => (ungroup? isHexDigit rest).map fun ds => (inBase 16 ds : Int)
    | '0' :: 'o' :: rest =>
      (ungroup? (fun c => '0' ≤ c && c ≤ '7') rest).map fun ds => (inBase 8 ds : Int)
    | '0' :: 'b' :: rest =>
      (ungroup? (fun c => c = '0' || c = '1') rest).map fun ds => (inBase 2 ds : Int)
    | _ =>
      let (negative, rest) := splitSign cs
      (plainDigits? rest).map fun ds => if negative then -(inBase 10 ds : Int) else inBase 10 ds
  n.filter fun n => -(Nat.pow 2 63 : Nat) ≤ n && n < (Nat.pow 2 63 : Nat)

def splitBefore (marks : List Char) (cs : List Char) : List Char × List Char :=
  (cs.takeWhile (!marks.contains ·), cs.dropWhile (!marks.contains ·))

def exponentPart? (cs : List Char) : Option (List Char) :=
  match cs with
  | [] => some []
  | _ :: rest =>
    let (negative, digits) := splitSign rest
    (ungroup? Char.isDigit digits).map fun ds => 'e' :: (if negative then '-' :: ds else ds)

/-- A number with a point, an exponent or both, without its underscores. -/
def floatText? (cs : List Char) : Option (List Char) := do
  let (whole, rest) := splitBefore ['.', 'e', 'E'] cs
  let whole ← plainDigits? whole
  match rest with
  | [] => none
  | '.' :: rest =>
    let (fraction, rest) := splitBefore ['e', 'E'] rest
    some (whole ++ '.' :: (← ungroup? Char.isDigit fraction) ++ (← exponentPart? rest))
  | rest => some (whole ++ (← exponentPart? rest))

/-- A positive number beyond all doubles is refused. -/
def float? (cs : List Char) : Option Float := do
  let (negative, rest) := splitSign cs
  if rest = "inf".toList || rest = "nan".toList then Decimal.read? cs
  else
    let x ← Decimal.read? (← floatText? rest)
    if negative then some (Binary64.ofMagnitude true (Binary64.magnitude x))
    else if Binary64.magnitude x < Binary64.infinityBits then some x else none

def fixedDigits? (width : Nat) (cs : List Char) : Option (Nat × List Char) :=
  let digits := cs.take width
  if digits.length = width && digits.all Char.isDigit then
    some (inBase 10 digits, cs.drop width)
  else none

def daysIn (year month : Nat) : Nat :=
  if month = 2 then
    if year % 4 = 0 && (year % 100 ≠ 0 || year % 400 = 0) then 29 else 28
  else if [4, 6, 9, 11].contains month then 30 else 31

def afterDate? (cs : List Char) : Option (List Char) := do
  let (year, cs) ← fixedDigits? 4 cs
  let '-' :: cs := cs | none
  let (month, cs) ← fixedDigits? 2 cs
  let '-' :: cs := cs | none
  let (day, cs) ← fixedDigits? 2 cs
  if 1 ≤ month && month ≤ 12 && 1 ≤ day && day ≤ daysIn year month then some cs else none

def afterMinutes? (cs : List Char) : Option (List Char) := do
  let (hour, cs) ← fixedDigits? 2 cs
  let ':' :: cs := cs | none
  let (minute, cs) ← fixedDigits? 2 cs
  if hour ≤ 23 && minute ≤ 59 then some cs else none

/-- What follows a time of day, which may have parts of a second. -/
def afterTime? (cs : List Char) : Option (List Char) := do
  let ':' :: cs := ← afterMinutes? cs | none
  let (second, cs) ← fixedDigits? 2 cs
  if 60 < second then none
  else match cs with
    | '.' :: rest =>
      let (parts, rest) := Decimal.spanDigits rest
      if parts.isEmpty then none else some rest
    | cs => some cs

def isOffset : List Char → Bool
  | [] => true
  | ['Z'] => true
  | ['z'] => true
  | c :: rest => (c = '+' || c = '-') && afterMinutes? rest = some []

def isTimeWithOffset (cs : List Char) : Bool := (afterTime? cs).any isOffset

/-- Whether a text is a date, with or without a time, or a time alone. -/
def isMoment (cs : List Char) : Bool :=
  match afterDate? cs with
  | some [] => true
  | some (c :: rest) => (c = 'T' || c = 't') && isTimeWithOffset rest
  | none => afterTime? cs = some []

def bareValue? (cs : List Char) : Option Toml :=
  if cs = "true".toList then some (.boolean true)
  else if cs = "false".toList then some (.boolean false)
  else if isMoment cs then some .moment
  else ((float? cs).map .float).orElse fun _ => (integer? cs).map .integer

def bare? (cs : List Char) : Option (Toml × List Char) := do
  let token := cs.takeWhile isBare
  let rest := cs.dropWhile isBare
  let v ← bareValue? token
  match afterDate? token, rest with
  | some [], ' ' :: more =>
    if isTimeWithOffset (more.takeWhile isBare) then some (.moment, more.dropWhile isBare)
    else some (v, rest)
  | _, _ => some (v, rest)

end Calorimetry.Toml
