import Calorimetry.Calibration
import Calorimetry.Config
import Calorimetry.Meter
import Calorimetry.Simulator

/-! What a configuration stands for when it runs: settings of the meter, the calibration sequence
and the simulated head. -/

namespace Calorimetry.Config

def duration (key : String) (seconds : Float) : Except ConfigError Duration :=
  match Duration.ofSeconds? seconds with
  | some d => .ok d
  | none => .error (.negative key)

def Measurement.settings (m : Measurement) : Except ConfigError (MeterSettings Float) := do
  let span ← duration "window" m.windowSeconds
  let minimum ← duration "min_pulse_duration" m.minPulseDuration
  let c : MeterSettings Float := {
    span := span
    threshold := m.pulseThreshold
    minimum := minimum
    gap := m.gapTolerance
    outlierFactor := m.outlierRejectionFactor }
  match c.fault? with
  | some e => throw e
  | none => pure c

def Measurement.meter (m : Measurement) (points : List (Point Float)) :
    Except ConfigError (Meter Float) := do
  Meter.ofSettings (← m.settings) points

/-- Times of the sequence come from the calibration section, voltage and resistances from that of
the heaters. -/
def Calibration.plan (c : Calibration) (h : HeaterSupply) :
    Except ConfigError (Calorimetry.Calibration.Plan Float) :=
  match PerHeater.ofList? h.resistances with
  | none => .error (.heaterCount h.resistances.length)
  | some resistances =>
    Calorimetry.Calibration.Plan.ofSettings {
      baseline := Duration.ofMillis c.baselineMs
      heater := Duration.ofMillis c.heaterMs
      cooloff := Duration.ofMillis c.cooloffMs
      poll := Duration.ofMillis c.pollMs
      order := c.heaterSequence
      resistances := resistances
      voltage := h.supplyVoltage }

/-- The simulated head. There must be one resistance for each heater. -/
def Simulation.head (s : Simulation) (h : HeaterSupply) : Except String (SimulatorSettings Float) := do
  let some resistances := PerHeater.ofList? h.resistances
    | throw s!"invalid configuration: heaters.resistances must list exactly {PerHeater.count} values"
  return {
    period := Duration.ofMillis s.samplePeriodMs
    bias := s.bias
    noise := s.noiseLevel
    laserPower := s.laserPowerMw
    laserDuration := Duration.ofMillis s.laserDurationMs
    laserPeriod := Duration.ofMillis s.laserPeriodMs
    voltsPerMilliwatt := s.voltsPerMw
    timeConstant := Duration.ofMillis s.timeConstantMs
    voltage := h.supplyVoltage
    resistances := resistances
    maxSamples := if s.maxSamples = 0 then none else some s.maxSamples }

/-- How long a read waits: two sample periods, but not less than ten milliseconds. -/
def readTimeout (c : SimulatorSettings Float) : Duration :=
  max (2 * c.period) (Duration.ofMillis 10)

end Calorimetry.Config
