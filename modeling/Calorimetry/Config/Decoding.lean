import Calorimetry.Config
import Calorimetry.Toml.Reader

/-! A configuration out of a TOML document. Every key may be left out, and keys that mean nothing
here are passed over. A section is a table, or an array that lists its values in order. -/

namespace Calorimetry.Config

/-- Whole numbers are taken for numbers with a point, but not the other way round. -/
def toFloat? : Toml → Option Float
  | .float x => some x
  | .integer n => some (Float.ofInt n)
  | _ => none

def toNat? : Toml → Option Nat
  | .integer n => if 0 ≤ n then some n.toNat else none
  | _ => none

def toText? : Toml → Option String
  | .text s => some s
  | _ => none

/-- The items of an array. Repeated tables are an array of tables. -/
def toItems? : Toml → Option (List Toml)
  | .array items => some items
  | .tables items => some (items.reverse.map (.table .header))
  | _ => none

def toList? {β : Type} (item? : Toml → Option β) (v : Toml) : Option (List β) := do
  (← toItems? v).mapM item?

def toPoint? : Toml → Option (Point Float)
  | .array [slope, power] => do some ⟨← toFloat? slope, ← toFloat? power⟩
  | .table _ entries => do
    some ⟨← toFloat? (← entries.lookup "slope"), ← toFloat? (← entries.lookup "power")⟩
  | _ => none

/-- Looks a value of a section up, by place or by key. -/
abbrev Fields := Nat → String → Option Toml

/-- A date or time has no values to look up. -/
def toFields? : Toml → Option Fields
  | .table _ entries => some fun _ key => entries.lookup key
  | .moment => some fun _ _ => none
  | v => (toItems? v).map fun items place _ => items[place]?

def Fields.get {β : Type} (f : Fields) (place : Nat) (key : String) (value? : Toml → Option β)
    (otherwise : β) : Option β :=
  match f place key with
  | none => some otherwise
  | some v => value? v

def toMeasurement? (v : Toml) : Option Measurement := do
  let f ← toFields? v
  let d : Measurement := {}
  some {
    windowSeconds := ← f.get 0 "window_seconds" toFloat? d.windowSeconds
    pulseThreshold := ← f.get 1 "pulse_threshold" toFloat? d.pulseThreshold
    minPulseDuration := ← f.get 2 "min_pulse_duration" toFloat? d.minPulseDuration
    gapTolerance := ← f.get 3 "gap_tolerance" toNat? d.gapTolerance
    outlierRejectionFactor :=
      ← f.get 4 "outlier_rejection_factor" toFloat? d.outlierRejectionFactor
    averageSamples := ← f.get 5 "average_samples" toNat? d.averageSamples }

def toHeaterSupply? (v : Toml) : Option HeaterSupply := do
  let f ← toFields? v
  let d : HeaterSupply := {}
  some {
    supplyVoltage := ← f.get 0 "supply_voltage" toFloat? d.supplyVoltage
    resistances := ← f.get 1 "resistances" (toList? toFloat?) d.resistances }

def toCalibration? (v : Toml) : Option Calibration := do
  let f ← toFields? v
  let d : Calibration := {}
  some {
    baselineMs := ← f.get 0 "baseline_ms" toNat? d.baselineMs
    heaterMs := ← f.get 1 "heater_ms" toNat? d.heaterMs
    cooloffMs := ← f.get 2 "cooloff_ms" toNat? d.cooloffMs
    pollMs := ← f.get 3 "poll_ms" toNat? d.pollMs
    heaterSequence := ← f.get 4 "heater_sequence" (toList? toNat?) d.heaterSequence
    points := ← f.get 5 "points" (toList? toPoint?) d.points }

def toSimulation? (v : Toml) : Option Simulation := do
  let f ← toFields? v
  let d : Simulation := {}
  some {
    samplePeriodMs := ← f.get 0 "sample_period_ms" toNat? d.samplePeriodMs
    bias := ← f.get 1 "bias" toFloat? d.bias
    noiseLevel := ← f.get 2 "noise_level" toFloat? d.noiseLevel
    laserPowerMw := ← f.get 3 "laser_power_mw" toFloat? d.laserPowerMw
    laserDurationMs := ← f.get 4 "laser_duration_ms" toNat? d.laserDurationMs
    laserPeriodMs := ← f.get 5 "laser_period_ms" toNat? d.laserPeriodMs
    voltsPerMw := ← f.get 6 "volts_per_mw" toFloat? d.voltsPerMw
    timeConstantMs := ← f.get 7 "time_constant_ms" toNat? d.timeConstantMs
    maxSamples := ← f.get 8 "max_samples" toNat? d.maxSamples }

def toLogging? (v : Toml) : Option Logging := do
  let f ← toFields? v
  let text? (v : Toml) : Option (Option String) := (toText? v).map some
  some {
    file := ← f.get 0 "file" text? none
    level := ← f.get 1 "level" text? none
    rotation := ← f.get 2 "rotation" text? none }

end Config

def Config.ofText? (text : String) : Option Config := do
  let entries ← Toml.read? text
  let f : Config.Fields := fun _ key => entries.lookup key
  some {
    measurement := ← f.get 0 "measurement" Config.toMeasurement? {}
    heaters := ← f.get 1 "heaters" Config.toHeaterSupply? {}
    calibration := ← f.get 2 "calibration" Config.toCalibration? {}
    simulation := ← f.get 3 "simulation" Config.toSimulation? {}
    logging := ← f.get 4 "logging" Config.toLogging? {} }

end Calorimetry
