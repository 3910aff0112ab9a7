import Calorimetry.Decimal.Text
import Calorimetry.Text.Basic
import Calorimetry.Text.Utf8

/-! Records of comma separated values. In what is read a field may stand between quotes, and a quote
inside is then doubled; what follows the closing quote still belongs to the field. A record ends with
its line, whichever way lines end, and empty lines are no records. What a file takes from here goes
through a `Codec`. -/

namespace Calorimetry.Csv

abbrev Field := List UInt8
abbrev Record := List Field

def comma : UInt8 := 0x2C
def quote : UInt8 := 0x22

def isLineEnd (b : UInt8) : Bool := b = 0x0A || b = 0x0D

inductive Place where
  | recordStart
  | fieldStart
  | plain
  | quoted
  | afterQuote
  deriving DecidableEq

inductive Effect where
  | keep (next : Place)
  | skip (next : Place)
  | endField
  | endRecord
  deriving DecidableEq

def unquoted (b : UInt8) : Effect :=
  if b = comma then .endField else if isLineEnd b then .endRecord else .keep .plain

def opening (b : UInt8) : Effect := if b = quote then .skip .quoted else unquoted b

def Place.effect : Place → UInt8 → Effect
  | recordStart, b => if isLineEnd b then .skip .recordStart else opening b
  | fieldStart, b => opening b
  | plain, b => unquoted b
  | quoted, b => if b = quote then .skip .afterQuote else .keep .quoted
  | afterQuote, b => if b = quote then .keep .quoted else unquoted b

/-- The record that ends with a field, given the fields before it and the field from the back. -/
def close (fields : Record) (field : Field) : Record := (field.reverse :: fields).reverse

/-- The records, given the finished fields of the first one and what there is of the next field, both
from the back. The end of the bytes ends a record that has begun. -/
def recordsFrom (place : Place) (fields : Record) (field : Field) : List UInt8 → List Record
  | [] => if place = .recordStart then [] else [close fields field]
  | b :: rest =>
    match place.effect b with
    | .keep next => recordsFrom next fields (b :: field) rest
    | .skip next => recordsFrom next fields field rest
    | .endField => recordsFrom .fieldStart (field.reverse :: fields) [] rest
    | .endRecord => close fields field :: recordsFrom .recordStart [] [] rest

/-- A byte-order mark in front is passed over. -/
def withoutMark : List UInt8 → List UInt8
  | 0xEF :: 0xBB :: 0xBF :: rest => rest
  | bytes => bytes

def records (bytes : List UInt8) : List Record := recordsFrom .recordStart [] [] (withoutMark bytes)

/-- A record with its end. Fields stand as they are, so none may need quotes. -/
def line : Record → List UInt8
  | [] => [0x0A]
  | [field] => field ++ [0x0A]
  | field :: next :: rest => field ++ comma :: line (next :: rest)

abbrev Row := List (List Char)

def row? (r : Record) : Option Row := r.mapM fun field => (Text.Utf8.decode? field).map Text.trim

/-- Whole numbers have a point. -/
def layout : Decimal.Layout where
  positional := (-5, 15)
  wholePoint := true
  exponentSign := []
  undefined := "NaN".toList
  infinity := "inf".toList
  negativeInfinity := "-inf".toList
  tie := .toEven

/-- All that a file of rows rests on. -/
structure Codec where
  line : Row → List UInt8
  /-- The rows of a file, with no blanks around their texts and `none` for what is not UTF-8. -/
  rows : List UInt8 → List (Option Row)
  number : Float → List Char
  number? : List Char → Option Float

namespace Codec

/-- Rows of values, a line each. The names of the values are written with the first row. -/
def serialize (codec : Codec) (names : Row) : List Row → List UInt8
  | [] => []
  | first :: rest => codec.line names ++ (first :: rest).flatMap codec.line

def usual : Codec where
  line row := Csv.line (row.map Text.Utf8.encode)
  rows bytes := (records bytes).map row?
  number := layout.write
  number? := Decimal.read?

end Codec
end Calorimetry.Csv
