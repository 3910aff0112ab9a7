import Calorimetry.Duration
import Calorimetry.Text.Basic

/-! What can go wrong, by cause, and the wording of each cause. -/

namespace Calorimetry

inductive ConfigError where
  | nonPositive (key : String)
  | negative (key : String)
  | nonFinitePoint (index : Nat)
  | unsortedTable (index : Nat)
  | nonMonotonicPower (index : Nat)
  | heaterCount (got : Nat)
  | heaterSequence (reason : String)
  deriving DecidableEq

def ConfigError.message : ConfigError → String
  | nonPositive key => s!"{key} must be > 0"
  | negative key => s!"{key} must be >= 0"
  | nonFinitePoint i => s!"calibration point {i} is not finite"
  | unsortedTable i => s!"calibration points must be sorted by slope (index {i} and {i + 1})"
  | nonMonotonicPower i =>
    s!"calibration power must not decrease with slope (index {i} and {i + 1})"
  | heaterCount got => s!"expected 3 heater resistances, got {got}"
  | heaterSequence reason => s!"invalid heater sequence: {reason}"

inductive Anomaly where
  | duplicate (time : Duration)
  | outOfOrder (latest got : Duration)
  | nonFinite (time : Duration)
  deriving DecidableEq

def Anomaly.message : Anomaly → String
  | duplicate time => s!"duplicate timestamp {time.text}"
  | outOfOrder latest got => s!"timestamp {got.text} precedes latest {latest.text}"
  | nonFinite time => s!"non-finite reading at {time.text}"

inductive HardwareError where
  | disconnected
  | timeout
  | rejected (reason : String)
  | other (text : String)
  deriving DecidableEq

def HardwareError.message : HardwareError → String
  | disconnected => "device not connected"
  | timeout => "sensor timeout"
  | rejected reason => s!"heater command rejected: {reason}"
  | other text => text

inductive DeviceError where
  | command (reason : String)
  | fault (reason : String)
  | timeout
  deriving DecidableEq

def DeviceError.message : DeviceError → String
  | command reason => s!"heater command failed: {reason}"
  | fault reason => s!"device fault: {reason}"
  | timeout => "device timed out"

/-- Whether a text speaks of a timeout. Both phrases hold letters to which no letter outside ASCII
is lowered alone, so lowering ASCII letters is enough. -/
def speaksOfTimeout (text : String) : Bool :=
  let lower := Text.lowered text
  Text.occursIn "timed out".toList lower || Text.occursIn "timeout".toList lower

/-- A failure of an unknown kind is told by its text. -/
def DeviceError.ofHardware : HardwareError → DeviceError
  | .disconnected => .fault HardwareError.disconnected.message
  | .timeout => .timeout
  | .rejected reason => .command reason
  | .other text => if speaksOfTimeout text then .timeout else .command text

end Calorimetry
