/-! Characters as bytes. What is not the one encoding of a character is not read. -/

namespace Calorimetry.Text.Utf8

def encode (cs : List Char) : List UInt8 := cs.flatMap String.utf8EncodeChar

/-- A character that is not yet read in full: its bits so far, how many bytes follow the next one,
and the bounds of the next one. -/
structure Pending where
  bits : Nat
  more : Nat
  low : UInt8 := 0x80
  high : UInt8 := 0xBF

/-- What the first byte of a longer encoding announces. The bounds leave out characters with a
shorter encoding, surrogates, and what lies beyond the last character. -/
def start? (b : UInt8) : Option Pending :=
  if b < 0xC2 then none
  else if b < 0xE0 then some { bits := b.toNat % 32, more := 0 }
  else if b < 0xF0 then
    some ⟨b.toNat % 16, 1, if b = 0xE0 then 0xA0 else 0x80, if b = 0xED then 0x9F else 0xBF⟩
  else if b < 0xF5 then
    some ⟨b.toNat % 8, 2, if b = 0xF0 then 0x90 else 0x80, if b = 0xF4 then 0x8F else 0xBF⟩
  else none

def decodeFrom? : Option Pending → List UInt8 → Option (List Char)
  | none, [] => some []
  | some _, [] => none
  | none, b :: rest =>
    if b < 0x80 then (decodeFrom? none rest).map (Char.ofNat b.toNat :: ·)
    else
      match start? b with
      | none => none
      | some p => decodeFrom? (some p) rest
  | some p, b :: rest =>
    if b < p.low || p.high < b then none
    else
      let bits := p.bits * 64 + b.toNat % 64
      match p.more with
      | 0 => (decodeFrom? none rest).map (Char.ofNat bits :: ·)
      | more + 1 => decodeFrom? (some { bits := bits, more := more }) rest

def decode? (bytes : List UInt8) : Option (List Char) := decodeFrom? none bytes

end Calorimetry.Text.Utf8
