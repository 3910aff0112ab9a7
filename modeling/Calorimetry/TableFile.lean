import Calorimetry.Config
import Calorimetry.Csv
import Calorimetry.Files
import Calorimetry.Text.Quoted

/-! Calibration tables as files: a line with the two headings, then a point a line. A table is
written beside its place and then moved there. -/

namespace Calorimetry.TableFile
open Text

def headings : Csv.Row := ["slope".toList, "power".toList]

/-- What a line says of a point, in the order of the headings. -/
def texts (codec : Csv.Codec) (p : Point Float) : Csv.Row := [codec.number p.slope, codec.number p.power]

def content (points : List (Point Float)) (codec : Csv.Codec := .usual) : List UInt8 :=
  let written := codec.serialize headings (points.map (texts codec))
  -- Without a point there was no row for the headings to come with.
  if points.isEmpty then written ++ codec.line headings else written

/-- Why a file gives no points. A row is told by its number, the headings being row 1. -/
inductive Fault where
  | unopened (fault : FileFault)
  | headingsUnread (reason : String)
  | headings (got : List String)
  | row (number : Nat)
  | points (fault : Config.PointFault)
  deriving DecidableEq

def Fault.message (path : FilePath) : Fault → String
  | unopened fault => s!"open calibration CSV {Quoted.quoted path.text}: {fault.message}"
  | headingsUnread reason => s!"read CSV headers {Quoted.quoted path.text}: {reason}"
  | headings got =>
    "calibration CSV must have headers 'slope,power', got: " ++ ",".intercalate got
  | row n => s!"invalid CSV row {n}"
  | points fault => fault.message

def point? (codec : Csv.Codec) : Csv.Row → Option (Point Float)
  | [slope, power] => do some ⟨← codec.number? slope, ← codec.number? power⟩
  | _ => none

def rows (codec : Csv.Codec) (n : Nat) : List (Option Csv.Row) → Except Fault (List (Point Float))
  | [] => .ok []
  | row :: rest => do
    match row.bind (point? codec) with
    | none => throw (.row n)
    | some p => return p :: (← rows codec (n + 1) rest)

/-- Headings first, then the rows one by one, then the table as a whole. -/
def ofBytes (bytes : List UInt8) (codec : Csv.Codec := .usual) : Except Fault (List (Point Float)) := do
  let read := codec.rows bytes
  match read.head?.getD (some []) with
  | none => throw (.headingsUnread "the headings are not UTF-8")
  | some got =>
    if got ≠ headings then throw (.headings (got.map String.ofList))
    let points ← rows codec 2 read.tail
    match Config.pointFault? points with
    | some fault => throw (.points fault)
    | none => pure points

/-- The points of a file, given what reading it gave. A directory can be opened, but not read. -/
def ofRead (read : Except FileFault (List UInt8)) (codec : Csv.Codec := .usual) :
    Except Fault (List (Point Float)) :=
  match read with
  | .ok bytes => ofBytes bytes codec
  | .error .isDirectory => .error (.headingsUnread FileFault.isDirectory.message)
  | .error fault => .error (.unopened fault)

/-- Where the new content stands before it is moved. -/
def draft (path : FilePath) : FilePath := path.withExtension "new".toList

def saving (path : FilePath) (points : List (Point Float)) (codec : Csv.Codec := .usual) : List FileStep := [
  .create (draft path),
  .write (draft path) (content points codec),
  .sync (draft path),
  .rename (draft path) path]

def stepFailure : FileStep → FileFault → String
  | .create path, fault => s!"create {Quoted.quoted path.text}: {fault.message}"
  | .write path _, fault => s!"write {Quoted.quoted path.text}: {fault.message}"
  | .sync path, fault => s!"write {Quoted.quoted path.text}: {fault.message}"
  | .rename _ path, fault => s!"replace {Quoted.quoted path.text}: {fault.message}"

end Calorimetry.TableFile
