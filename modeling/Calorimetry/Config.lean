import Calorimetry.Decimal.Text
import Calorimetry.Table

/-! The configuration file: its sections with the values they have when nothing is said, and which
values are refused. Times are in seconds or milliseconds, as the keys say. -/

namespace Calorimetry.Config

structure Measurement where
  windowSeconds : Float := 10.0
  pulseThreshold : Float := 0.001
  minPulseDuration : Float := 1.0
  gapTolerance : Nat := 2
  outlierRejectionFactor : Float := 3.0
  /-- Readings averaged into one sample; 0 is none. -/
  averageSamples : Nat := 0

structure HeaterSupply where
  supplyVoltage : Float := 5.0
  resistances : List Float := [2300.0, 500.0, 200.0]

structure Calibration where
  baselineMs : Nat := 10000
  heaterMs : Nat := 2000
  cooloffMs : Nat := 20000
  pollMs : Nat := 50
  heaterSequence : List Nat := [1, 2, 3]
  points : List (Point Float) := [⟨0.0, 0.0⟩]

structure Simulation where
  samplePeriodMs : Nat := 100
  bias : Float := 0.0
  noiseLevel : Float := 0.00002
  laserPowerMw : Float := 40.0
  laserDurationMs : Nat := 2000
  laserPeriodMs : Nat := 20000
  voltsPerMw : Float := 0.001
  timeConstantMs : Nat := 2000
  /-- The stream ends after so many samples; 0 is no end. -/
  maxSamples : Nat := 0

structure Logging where
  file : Option String := none
  level : Option String := none
  rotation : Option String := none

inductive PointFault where
  | notFinite (index : Nat)
  | slopeFalls (index : Nat)
  | powerFalls (index : Nat)
  deriving DecidableEq

def PointFault.message : PointFault → String
  | notFinite i => s!"calibration point {i} is not finite"
  | slopeFalls i => s!"calibration points must be sorted by slope (index {i} and {i + 1})"
  | powerFalls i => s!"calibration power must not decrease with slope (index {i} and {i + 1})"

/-- The first point with a value that is not finite; without one, the first two neighbours of which
the second is lower. -/
def pointFault? (points : List (Point Float)) : Option PointFault :=
  let numbered := points.zipIdx
  let notFinite := numbered.findSome? fun (p, i) =>
    if p.slope.isFinite && p.power.isFinite then none else some (.notFinite i)
  let falling := (numbered.zip points.tail).findSome? fun ((p, i), next) =>
    if next.slope < p.slope then some (.slopeFalls i)
    else if next.power < p.power then some (.powerFalls i)
    else none
  notFinite.orElse fun _ => falling

inductive Fault where
  | notPositive (key : String)
  | negative (key : String)
  | belowOne (key : String)
  | minimumExceedsWindow
  | resistanceCount (got : Nat)
  | resistance (index : Nat)
  | emptySequence
  | unknownHeater (index heater : Nat)
  | repeatedHeater (heater : Nat)
  | point (fault : PointFault)
  | laserExceedsPeriod
  | rotation (got : String)
  deriving DecidableEq

def Fault.message : Fault → String
  | notPositive key => s!"{key} must be > 0"
  | negative key => s!"{key} must be >= 0"
  | belowOne key => s!"{key} must be >= 1"
  | minimumExceedsWindow => "measurement.min_pulse_duration must not exceed window_seconds"
  | resistanceCount got => s!"heaters.resistances must list exactly 3 values, got {got}"
  | resistance i => s!"heaters.resistances[{i}] must be > 0"
  | emptySequence => "calibration.heater_sequence must not be empty"
  | unknownHeater i h => s!"calibration.heater_sequence[{i}] must be in 1..=3, got {h}"
  | repeatedHeater h => s!"calibration.heater_sequence repeats heater {h}"
  | point fault => fault.message
  | laserExceedsPeriod => "simulation.laser_duration_ms must not exceed laser_period_ms"
  | rotation got => s!"logging.rotation must be one of never|daily|hourly, got {got}"

def require (passes : Bool) (f : Fault) : Option Fault := if passes then none else some f

def firstFault (checks : List (Option Fault)) : Option Fault := checks.findSome? id

def Measurement.fault? (m : Measurement) : Option Fault :=
  firstFault [
    require (Scalar.isPositive m.windowSeconds) (.notPositive "measurement.window_seconds"),
    require (Scalar.isPositive m.pulseThreshold) (.notPositive "measurement.pulse_threshold"),
    require (Scalar.isNonnegative m.minPulseDuration) (.negative "measurement.min_pulse_duration"),
    require (!Scalar.lt m.windowSeconds m.minPulseDuration) .minimumExceedsWindow,
    require (Scalar.isPositive m.outlierRejectionFactor)
      (.notPositive "measurement.outlier_rejection_factor")]

def HeaterSupply.fault? (h : HeaterSupply) : Option Fault :=
  firstFault [
    require (Scalar.isPositive h.supplyVoltage) (.notPositive "heaters.supply_voltage"),
    require (h.resistances.length = 3) (.resistanceCount h.resistances.length),
    (h.resistances.findIdx? (!Scalar.isPositive ·)).map .resistance]

/-- The first heater of a sequence that does not exist or comes again; `seen` are those before. -/
def sequenceFault? (seen : List Nat) : List Nat → Option Fault
  | [] => none
  | h :: rest =>
    if h < 1 || 3 < h then some (.unknownHeater seen.length h)
    else if seen.contains h then some (.repeatedHeater h)
    else sequenceFault? (seen ++ [h]) rest

def Calibration.fault? (c : Calibration) : Option Fault :=
  firstFault [
    require (1 ≤ c.baselineMs) (.belowOne "calibration.baseline_ms"),
    require (1 ≤ c.heaterMs) (.belowOne "calibration.heater_ms"),
    require (1 ≤ c.cooloffMs) (.belowOne "calibration.cooloff_ms"),
    require (1 ≤ c.pollMs) (.belowOne "calibration.poll_ms"),
    require (!c.heaterSequence.isEmpty) .emptySequence,
    sequenceFault? [] c.heaterSequence,
    (pointFault? c.points).map .point]

def Simulation.fault? (s : Simulation) : Option Fault :=
  firstFault [
    require (1 ≤ s.samplePeriodMs) (.belowOne "simulation.sample_period_ms"),
    require (1 ≤ s.timeConstantMs) (.belowOne "simulation.time_constant_ms"),
    require (Scalar.isPositive s.voltsPerMw) (.notPositive "simulation.volts_per_mw"),
    require (Scalar.isNonnegative s.noiseLevel) (.negative "simulation.noise_level"),
    require (Scalar.isNonnegative s.laserPowerMw) (.negative "simulation.laser_power_mw"),
    require (s.laserPeriodMs = 0 || s.laserDurationMs ≤ s.laserPeriodMs) .laserExceedsPeriod]

def Logging.fault? (l : Logging) : Option Fault :=
  l.rotation.bind fun r => require (["never", "daily", "hourly"].contains r) (.rotation r)

end Config

structure Config where
  measurement : Config.Measurement := {}
  heaters : Config.HeaterSupply := {}
  calibration : Config.Calibration := {}
  simulation : Config.Simulation := {}
  logging : Config.Logging := {}

def Config.fault? (c : Config) : Option Config.Fault :=
  Config.firstFault [c.measurement.fault?, c.heaters.fault?, c.calibration.fault?,
    c.simulation.fault?, c.logging.fault?]

end Calorimetry
