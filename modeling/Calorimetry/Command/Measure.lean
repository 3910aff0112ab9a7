import Calorimetry.Acquisition
import Calorimetry.Config.Assembly
import Calorimetry.Problem
import Calorimetry.Reporter
import Calorimetry.Source.Averaged

/-! Measuring with the simulated head for a span of its time. Each pulse is reported once it has
ended. -/

namespace Calorimetry.Command

/-- What a measurement yields: the pulses in the order of their report, how many samples came and
how many of them were refused, and the time that went by. -/
structure Measured where
  pulses : List (LocatedPulse Float)
  samples : Nat
  anomalies : Nat
  elapsed : Duration

structure Measuring where
  acquisition : Acquisition (Averaged (SimulatedHead Float) Float) Float
  reporter : Reporter := {}
  reported : List (LocatedPulse Float) := []

namespace Measuring

def elapsed (m : Measuring) : Duration := m.acquisition.source.inner.clock.elapsed

def report (m : Measuring) (shown : Snapshot Float) : Measuring :=
  let (pulses, reporter) := m.reporter.report shown.pulses
  { m with reporter := reporter, reported := m.reported ++ pulses }

def queueCapacity : Nat := 256

/-- One read, and a look at the snapshots that it led to. The queue is the first subscription. -/
def step (source : Source (Averaged (SimulatedHead Float) Float) Float) (timeout : Duration)
    (m : Measuring) : Measuring :=
  let a := m.acquisition.step source timeout
  let (shown, session) := a.session.receive 0 queueCapacity
  shown.foldl report { m with acquisition := { a with session := session } }

def run (source : Source (Averaged (SimulatedHead Float) Float) Float) (timeout span : Duration) :
    Nat → Measuring → Measuring
  | 0, m => m
  | reads + 1, m =>
    if m.acquisition.finished || span ≤ m.elapsed then m
    else run source timeout span reads (m.step source timeout)

/-- The end of a measurement: what the meter shows last is reported too. -/
def finish (m : Measuring) : Measured :=
  let m := m.report m.acquisition.session.meter.snapshot
  ⟨m.reported, m.acquisition.ingested, m.acquisition.session.anomalies, m.elapsed⟩

end Measuring

def outOfRange (seconds : Float) : Problem :=
  let given := String.ofList (Decimal.prose.write seconds)
  .ofText s!"{Problem.configurationMark}: --seconds {given} is out of range"

/-- A time to measure for. A clock counts up to `2 ^ 63` seconds. -/
def measuringSpan (seconds : Float) : Except Problem Duration :=
  if !Scalar.isPositive seconds then
    .error (.ofText s!"{Problem.configurationMark}: --seconds must be > 0")
  else
    match Duration.ofSeconds? seconds with
    | some span =>
      if span < Duration.ofSeconds (Nat.pow 2 63) then .ok span else .error (outOfRange seconds)
    | none => .error (outOfRange seconds)

/-- Every read lets at least a sample period go by, save the first, so the reads are enough. -/
def measure (c : Config) (points : List (Point Float)) (seconds : Float) :
    Except Problem Measured := do
  let span ← measuringSpan seconds
  let settings ← Problem.orText (c.simulation.head c.heaters)
  let meter ← Problem.orSetting (c.measurement.meter points)
  let session := ({ meter := meter } : Session Float).subscribeChannel Measuring.queueCapacity
  let source := SimulatedHead.source.averaged c.measurement.averageSamples
  let start : Measuring := {
    acquisition := { source := { inner := SimulatedHead.start settings }, session := session } }
  let measuring := start.run source (Config.readTimeout settings) span (span / settings.period + 2)
  return measuring.finish

end Calorimetry.Command
