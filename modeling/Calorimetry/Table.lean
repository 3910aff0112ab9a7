import Calorimetry.Error
import Calorimetry.Scalar

/-! Calibration tables: which power made which slope. A table is finite and non-decreasing in
slope and in power. Between its points the power is interpolated along straight lines, outside it
the first or the last segment goes on. -/

namespace Calorimetry

/-- Power (mW) that made a slope (V/s). -/
structure Point (α : Type) where
  slope : α
  power : α
  deriving DecidableEq

namespace Point
variable {α : Type} [Scalar α]

def isFinite (p : Point α) : Bool := Scalar.isFinite p.slope && Scalar.isFinite p.power

/-- By slope, and by power where the slopes are the same value. -/
def precedes (a b : Point α) : Bool :=
  ((Scalar.order a.slope b.slope).then (Scalar.order a.power b.power)).isLE

/-- What is wrong with the first two neighbours that are not in step; `i` is the position of the
first point. -/
def disorder? : Nat → List (Point α) → Option ConfigError
  | i, a :: b :: rest =>
    if Scalar.lt b.slope a.slope then some (.unsortedTable i)
    else if Scalar.lt b.power a.power then some (.nonMonotonicPower i)
    else disorder? (i + 1) (b :: rest)
  | _, _ => none

/-- Why points do not make a table: first an undefined or infinite value anywhere, then the order. -/
def fault? (points : List (Point α)) : Option ConfigError :=
  match points.findIdx? (!·.isFinite) with
  | some i => some (.nonFinitePoint i)
  | none => disorder? 0 points

/-- Power at slope `x` on the line from `a` to `b`; a step where both have one slope. -/
def interpolate (a b : Point α) (x : α) : α :=
  let width := b.slope - a.slope
  if Scalar.eq width 0 then (if Scalar.lt x a.slope then a.power else b.power)
  else a.power + (x - a.slope) * (b.power - a.power) / width

end Point

structure Table (α : Type) [Scalar α] where
  points : List (Point α)
  sound : Point.fault? points = none

namespace Table
variable {α : Type} [Scalar α]

def empty : Table α := ⟨[], rfl⟩

instance : Inhabited (Table α) := ⟨empty⟩

def ofPoints (points : List (Point α)) : Except ConfigError (Table α) :=
  match h : Point.fault? points with
  | none => .ok ⟨points, h⟩
  | some e => .error e

def sorted (points : List (Point α)) : List (Point α) := points.mergeSort Point.precedes

def ofUnsorted (points : List (Point α)) : Except ConfigError (Table α) :=
  ofPoints (sorted points)

/-- One point gives its power to every slope, and no point gives none. -/
def powerFor? (t : Table α) (slope : α) : Option α :=
  match t.points with
  | [] => none
  | [p] => some p.power
  | points =>
    let below := points.findIdx fun p => !Scalar.le p.slope slope
    let upper := max 1 (min below (points.length - 1))
    match points[upper - 1]?, points[upper]? with
    | some a, some b => some (Point.interpolate a b slope)
    | _, _ => none

end Table
end Calorimetry
