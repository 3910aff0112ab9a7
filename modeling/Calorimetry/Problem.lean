import Calorimetry.Calibration
import Calorimetry.Text.Json

/-! What stops a command: its cause with what was being done meanwhile, how it is explained, and the
exit code that tells kinds of problems apart. -/

namespace Calorimetry
open Text

/-- A cause. Only a text is known of most causes. -/
inductive Problem.Root where
  | setting (e : ConfigError)
  | calibration (a : Calibration.Aborted Float)
  | other (text : String)
  deriving DecidableEq

def Problem.Root.message : Problem.Root → String
  | setting e => e.message
  | calibration a => a.message
  | other text => text

/-- A cause and what was being done, the widest task first. -/
structure Problem where
  root : Problem.Root
  during : List String := []

namespace Problem

def ofText (text : String) : Problem := { root := .other text }

def orSetting {β : Type} (r : Except ConfigError β) : Except Problem β :=
  r.mapError fun e => { root := .setting e }

def orText {β : Type} (r : Except String β) : Except Problem β := r.mapError ofText

def within (task : String) (p : Problem) : Problem := { p with during := task :: p.during }

def chain (p : Problem) : List String := p.during ++ [p.root.message]

def fullText (p : Problem) : String := ": ".intercalate p.chain

/-- The first words of a problem with the configuration that is known by its text alone. -/
def configurationMark : String := "invalid configuration"

def concernsConfiguration (p : Problem) : Bool :=
  match p.root with
  | .setting _ => true
  | _ => p.chain.any fun text => configurationMark.toList.isPrefixOf text.toList

/-- Whether the headings of a calibration table are at fault, in whichever case that is said. -/
def concernsHeadings (p : Problem) : Bool :=
  occursIn "calibration csv must have headers".toList (lowered p.fullText)

def keptText (a : Calibration.Aborted Float) : String :=
  s!"Collected before stopping: {a.collected.length} point(s), not saved."

def explainCalibration (a : Calibration.Aborted Float) : String :=
  match a.cause with
  | .cancelled =>
    s!"What happened: Calibration was cancelled during {a.stage.message}.\n{keptText a}\n" ++
      "How to fix: Re-run `lpm calibrate` and let it finish."
  | .device .timeout =>
    s!"What happened: The heater bank timed out during {a.stage.message}.\n{keptText a}\n" ++
      "How to fix: Check the heater driver link, then re-run the calibration."
  | .device e =>
    s!"What happened: A heater command failed during {a.stage.message} ({e.message}).\n{keptText a}\n" ++
      "How to fix: Check the heater wiring and supply, then re-run the calibration."
  | .table e =>
    s!"What happened: The measured points do not form a usable table ({e.message}).\n" ++
      "Likely causes: No pulse was detected while a heater was on, or the phases are too short.\n" ++
      "How to fix: Lengthen calibration.heater_ms or lower measurement.pulse_threshold."

def explanation (p : Problem) : String :=
  match p.root with
  | .calibration a => explainCalibration a
  | _ =>
    if p.concernsHeadings then
      "Invalid headers in calibration CSV. Expected 'slope,power'."
    else if p.concernsConfiguration then
      s!"What happened: Configuration is invalid ({p.fullText}).\n" ++
        "Likely causes: Out-of-range values in the TOML or a malformed calibration table.\n" ++
        "How to fix: Edit the config file, then rerun. `lpm self-check` validates without measuring."
    else
      let cause := match p.chain.tail with
        | [] => ""
        | inner :: _ => " Cause: " ++ inner
      let outermost := p.chain.head?.getD ""
      s!"Something went wrong.{cause}\n" ++
        s!"How to fix: Re-run with --log-level=debug for details. Original: {outermost}"

/-- 2 is for the configuration, 3 for a device, 4 for a cancelled calibration and 1 for the rest. -/
def exitCode (p : Problem) : Nat :=
  match p.root with
  | .calibration a =>
    match a.cause with
    | .cancelled => 4
    | .device _ => 3
    | .table _ => 1
  | _ => if p.concernsConfiguration then 2 else 1

def reason (p : Problem) : String :=
  match p.root with
  | .calibration a =>
    match a.cause with
    | .cancelled => "Cancelled"
    | .device _ => "DeviceFailure"
    | .table _ => "InvalidTable"
  | _ => if p.concernsConfiguration then "InvalidConfig" else "Error"

def pointJson (p : Point Float) : String :=
  Json.object [("slope", Json.number p.slope), ("power_mw", Json.number p.power)]

/-- The explanation with the kind; for a calibration also where it stopped and the points it has. -/
def json (p : Problem) : String :=
  let progress := match p.root with
    | .calibration a => [
      ("stage", Json.text a.stage.message),
      ("partial", Json.array (a.collected.map pointJson))]
    | _ => []
  Json.object ([("reason", Json.text p.reason), ("message", Json.text p.explanation)] ++ progress)

end Problem
end Calorimetry
