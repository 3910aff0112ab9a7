import Calorimetry.Command.Arguments
import Calorimetry.Config.Assembly
import Calorimetry.Problem
import Calorimetry.Workbench

/-! Calibration of the simulated head with its own heaters. -/

namespace Calorimetry.Command

def Overrides.apply (o : Overrides) (c : Config.Calibration) : Config.Calibration :=
  { c with
    baselineMs := o.baselineMs.getD c.baselineMs
    heaterMs := o.heaterMs.getD c.heaterMs
    cooloffMs := o.cooloffMs.getD c.cooloffMs }

/-- Runs the heater sequence with the laser dark and a stream without end. The bank refuses the
`failOn`-th command that switches something on. -/
def calibrate (c : Config) (o : Overrides) (failOn : Option Nat) : Except Problem (Table Float) := do
  let plan ← Problem.orSetting ((o.apply c.calibration).plan c.heaters)
  let settings ← Problem.orText (c.simulation.head c.heaters)
  let meter ← Problem.orSetting (c.measurement.meter [])
  let dark := { settings with laserPower := 0.0, maxSamples := none }
  let bench : Workbench Float := {
    source := { inner := { SimulatedHead.start dark with bank := { failOn := failOn } } }
    average := c.measurement.averageSamples
    session := { meter := meter } }
  let (outcome, _) := Calibration.run plan Workbench.environment bench
  outcome.mapError fun a => { root := .calibration a }

end Calorimetry.Command
