import Calorimetry.LineFit
import Calorimetry.Table
import Calorimetry.Window

/-! Heating pulses. A pulse is known by the times of its first and last sample, so samples that
leave the window never renumber it; positions are looked up when they are needed. A growing pulse
is fitted anew with every sample, but a fit is worked out only if someone looks at it. -/

namespace Calorimetry

/-- A `growing` pulse can still be extended, an `ending` one cannot and is about to get its last
fit, a `frozen` one no longer changes. -/
inductive Phase where
  | growing
  | ending
  | frozen
  deriving DecidableEq

/-- What a fit tells of a pulse: the `slope` of the line (V/s), and the `rise`, which is the sum of
rate times step over the pulse (V). -/
structure PulseFit (α : Type) where
  slope : α
  rise : α
  degenerate : Bool
  deriving DecidableEq

/-- `rate` is the last rate above the threshold (V/s) and `annotation` what the table makes of the
slope (mW). -/
structure Pulse (α : Type) where
  start : Duration
  stop : Duration
  rate : α
  phase : Phase
  fit : Thunk (PulseFit α)
  annotation : Thunk (Option α)

namespace Pulse
variable {α : Type}

def begin [Scalar α] (start stop : Duration) (rate : α) : Pulse α :=
  ⟨start, stop, rate, .growing, .pure ⟨0, 0, false⟩, .pure none⟩

def length (p : Pulse α) : Duration := p.stop - p.start

def takesFit (p : Pulse α) : Bool := p.phase ≠ .frozen

def slope (p : Pulse α) : α := p.fit.get.slope

def rise (p : Pulse α) : α := p.fit.get.rise

def degenerate (p : Pulse α) : Bool := p.fit.get.degenerate

def power (p : Pulse α) : Option α := p.annotation.get

end Pulse

namespace PulseFit
variable {α : Type} [Scalar α]

def timedReadings (start : Duration) (samples : List (Sample α)) : List (α × α) :=
  samples.map fun s => (Duration.secondsBetween start s.time, s.reading)

/-- Adds rate times step, for each two neighbours, to a sum. -/
def addRises (sum : α) : List α → List (Sample α) → α
  | rate :: rates, a :: b :: rest =>
    addRises (sum + rate * Duration.secondsBetween a.time b.time) rates (b :: rest)
  | _, _ => sum

def ofStretch (outlierFactor : α) (start : Duration) (samples : List (Sample α)) (rates : List α) :
    PulseFit α :=
  let line := LineFit.ofPoints outlierFactor (timedReadings start samples)
  ⟨line.slope, addRises Scalar.emptySum rates samples, line.degenerate⟩

end PulseFit

namespace Pulse
variable {α : Type} [Scalar α]

/-- Fits the line anew to the samples of the pulse, if both its ends are in the window. -/
def refit (outlierFactor : α) (w : Window α) (p : Pulse α) : Pulse α :=
  { p with fit := .mk fun _ =>
    match w.between? p.start p.stop with
    | some (samples, rates) => PulseFit.ofStretch outlierFactor p.start samples rates
    | none => p.fit.get }

def annotate (t : Table α) (p : Pulse α) : Pulse α :=
  { p with annotation := .mk fun _ => t.powerFor? p.slope }

end Pulse

structure LocatedPulse (α : Type) where
  first : Nat
  last : Nat
  pulse : Pulse α

/-- The pulse with its positions among the samples, if both its ends are there. -/
def Pulse.locate? {α : Type} (samples : List (Sample α)) (p : Pulse α) :
    Option (LocatedPulse α) := do
  let first ← Sample.indexOf? samples p.start
  let last ← Sample.indexOf? samples p.stop
  some ⟨first, last, p⟩

end Calorimetry
