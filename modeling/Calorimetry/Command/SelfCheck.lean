import Calorimetry.Config.Assembly
import Calorimetry.Problem

/-! A check of a configuration: everything that the other tasks build is built, and a few samples
are read from the simulated head without waiting. -/

namespace Calorimetry.Command

structure SelfCheck where
  points : Nat
  samples : Nat
  deriving DecidableEq

def samplesRead (timeout : Duration) : Nat → SimulatedHead Float → Except HardwareError Nat
  | 0, _ => .ok 0
  | wanted + 1, head =>
    match head.read timeout with
    | (.error e, _) => .error e
    | (.ok none, _) => .ok 0
    | (.ok (some _), head) => (samplesRead timeout wanted head).map (· + 1)

/-- Wants three samples and is content with one. -/
def selfCheck (c : Config) (points : List (Point Float)) : Except Problem SelfCheck := do
  let table ← Problem.orSetting (Table.ofPoints points)
  let _ ← Problem.orSetting c.measurement.settings
  let _ ← Problem.orSetting (c.calibration.plan c.heaters)
  let settings ← Problem.orText (c.simulation.head c.heaters)
  match samplesRead (Config.readTimeout settings) 3 (SimulatedHead.start settings) with
  | .error e => throw (.ofText s!"sensor read failed: {e.message}")
  | .ok 0 => throw (.ofText "sensor produced no samples")
  | .ok samples => return ⟨table.points.length, samples⟩

end Calorimetry.Command
