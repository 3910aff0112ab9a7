import Calorimetry.Scalar

/-! Straight lines through points. A least-squares line is fitted to all points; the points whose
residual exceeds `k` times the root mean square residual are left out, and the line is fitted once
more to the rest. -/

namespace Calorimetry

structure Line (α : Type) where
  slope : α
  intercept : α
  deriving DecidableEq

/-- `used` counts the points the line rests on. A degenerate fit had fewer than two distinct
abscissae to rest on, or values too large to compute with; its slope and intercept are zero. -/
structure LineFit (α : Type) extends Line α where
  used : Nat
  degenerate : Bool
  deriving DecidableEq

variable {α : Type} [Scalar α]

def Line.residual (l : Line α) (p : α × α) : α := p.2 - (l.slope * p.1 + l.intercept)

namespace LineFit

def none (used : Nat) : LineFit α := ⟨⟨0, 0⟩, used, true⟩

/-- Line through all points, if their abscissae differ and the sums stay finite. -/
def leastSquares (points : List (α × α)) : Option (Line α) :=
  if points.length < 2 then Option.none
  else
    let n : α := points.length
    let meanX := Scalar.sumOf Prod.fst points / n
    let meanY := Scalar.sumOf Prod.snd points / n
    let sxx := points.foldl (fun s p => s + (p.1 - meanX) * (p.1 - meanX)) 0
    let sxy := points.foldl (fun s p => s + (p.1 - meanX) * (p.2 - meanY)) 0
    if !Scalar.isFinite sxx || Scalar.eq sxx 0 then Option.none
    else
      let slope := sxy / sxx
      if Scalar.isFinite slope then some ⟨slope, meanY - slope * meanX⟩ else Option.none

def spread (l : Line α) (points : List (α × α)) : α :=
  let squares := Scalar.sumOf (fun p => l.residual p * l.residual p) points
  Scalar.sqrt (squares / (points.length : α))

/-- Means and centred sums of the points seen so far. -/
structure Moments (α : Type) where
  count : Nat
  meanX : α
  meanY : α
  sumXX : α
  sumXY : α

def Moments.empty : Moments α := ⟨0, 0, 0, 0, 0⟩

def Moments.add (m : Moments α) (p : α × α) : Moments α :=
  let n : α := (m.count + 1 : Nat)
  let dx := p.1 - m.meanX
  let dy := p.2 - m.meanY
  let meanX := m.meanX + dx / n
  let meanY := m.meanY + dy / n
  ⟨m.count + 1, meanX, meanY, m.sumXX + dx * (p.1 - meanX), m.sumXY + dx * (p.2 - meanY)⟩

def Moments.of (points : List (α × α)) : Moments α := points.foldl Moments.add Moments.empty

/-- Line through the points summed up, if there are two and the sums are sound. -/
def Moments.line? (m : Moments α) : Option (Line α) :=
  if m.count < 2 || !Scalar.isPositive m.sumXX then Option.none
  else
    let slope := m.sumXY / m.sumXX
    if Scalar.isFinite slope then some ⟨slope, m.meanY - slope * m.meanX⟩ else Option.none

def isInlier (l : Line α) (bound : α) (p : α × α) : Bool :=
  !Scalar.lt bound (Scalar.abs (l.residual p))

def ofPoints (k : α) (points : List (α × α)) : LineFit α :=
  match leastSquares points with
  | Option.none => none points.length
  | some line =>
    let bound := k * spread line points
    if !Scalar.isPositive bound || points.all (isInlier line bound) then
      ⟨line, points.length, false⟩
    else
      let inliers := points.filter (isInlier line bound)
      match (Moments.of inliers).line? with
      | some refined => ⟨refined, inliers.length, false⟩
      | Option.none => none inliers.length

end LineFit
end Calorimetry
