import Calorimetry.Decimal.Text

/-! Compact JSON texts, built from the texts of their parts. -/

namespace Calorimetry.Text.Json

def hexByte (n : Nat) : List Char := Nat.toDigits 16 (n / 16) ++ Nat.toDigits 16 (n % 16)

/-- Only quotes, backslashes and the controls below the space are escaped. -/
def escape (c : Char) : List Char :=
  if c = '"' || c = '\\' then ['\\', c]
  else if c = '\n' then ['\\', 'n']
  else if c = '\r' then ['\\', 'r']
  else if c = '\t' then ['\\', 't']
  else if c.toNat = 0x08 then ['\\', 'b']
  else if c.toNat = 0x0C then ['\\', 'f']
  else if c.toNat < 0x20 then '\\' :: 'u' :: '0' :: '0' :: hexByte c.toNat
  else [c]

def text (s : String) : String := String.ofList ('"' :: s.toList.flatMap escape ++ ['"'])

def natural (n : Nat) : String := String.ofList (Nat.toDigits 10 n)

def boolean (b : Bool) : String := if b then "true" else "false"

def null : String := "null"

/-- Whole numbers have a point, and an exponent has a sign. What is not finite has no number. -/
def layout : Decimal.Layout where
  positional := (-5, 15)
  wholePoint := true
  exponentSign := ['+']
  undefined := null.toList
  infinity := null.toList
  negativeInfinity := null.toList
  tie := .toEven

def number (x : Float) : String := String.ofList (layout.write x)

def array (items : List String) : String := "[" ++ ",".intercalate items ++ "]"

/-- Fields stand in the order of their keys. -/
def object (fields : List (String × String)) : String :=
  let ordered := fields.mergeSort fun a b => decide (a.1 ≤ b.1)
  "\x7b" ++ ",".intercalate (ordered.map fun f => text f.1 ++ ":" ++ f.2) ++ "\x7d"

end Calorimetry.Text.Json
