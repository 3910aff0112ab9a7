import Calorimetry.Command.Calibrate
import Calorimetry.Command.Message
import Calorimetry.Config.Loading
import Calorimetry.TableFile

/-! The program: from its arguments and the files it finds to what it prints, the files it writes and
its exit code. -/

namespace Calorimetry.Command
open Text

structure Outcome where
  exitCode : Nat
  output : String
  errors : String
  deriving DecidableEq

structure Performed where
  messages : List Message
  problem : Option Problem := none

variable {m : Type → Type} [Monad m]

def loadConfig (access : FileAccess m) (path : FilePath) : ExceptT Problem m Config := do
  let wrong (text : String) : Problem := (Problem.ofText text).within Problem.configurationMark
  match Config.ofRead (← access.read path) with
  | .error fault => throw (wrong (fault.message path))
  | .ok c =>
    match c.fault? with
    | some fault => throw (wrong fault.message)
    | none => pure c

/-- The points of a table file, or without one those of the configuration. -/
def loadPoints (access : FileAccess m) (c : Config) :
    Option String → ExceptT Problem m (List (Point Float))
  | none => pure c.calibration.points
  | some file => do
    let path := FilePath.ofText file
    match TableFile.ofRead (← access.read path) with
    | .error fault =>
      throw ((Problem.ofText (fault.message path)).within
        s!"{Problem.configurationMark}: calibration table")
    | .ok points => pure points

def performed {β : Type} (messages : β → List Message) : Except Problem β → Performed
  | .ok result => ⟨messages result, none⟩
  | .error p => ⟨[], some p⟩

/-- The table is printed before it is saved. -/
def performCalibration (access : FileAccess m) (save : Option String) :
    Except Problem (Table Float) → m Performed
  | .error p => pure ⟨[], some p⟩
  | .ok table =>
    let printed := Message.table table.points
    match save with
    | none => pure ⟨[printed], none⟩
    | some file => do
      match ← access.performAll (TableFile.saving (FilePath.ofText file) table.points) with
      | .ok () => pure ⟨[printed, .saved file], none⟩
      | .error (step, fault) => pure ⟨[printed], some (.ofText (TableFile.stepFailure step fault))⟩

def failureNumber? (hook : Option String) : Option Nat :=
  hook.bind fun text => count? (String.ofList (trim text.toList))

def perform (access : FileAccess m) (hook : Option String) (i : Invocation) : m Performed := do
  let prepared ← ExceptT.run do
    let c ← loadConfig access (FilePath.ofText i.config)
    pure (c, ← loadPoints access c i.calibration)
  match prepared with
  | .error p => pure ⟨[], some p⟩
  | .ok (c, points) =>
    match i.task with
    | .selfCheck => pure (performed (fun r => [.checked r]) (selfCheck c points))
    | .measure seconds =>
      let all (r : Measured) : List Message := r.pulses.map .pulse ++ [.summary r]
      pure (performed all (measure c points seconds))
    | .calibrate save o => performCalibration access save (calibrate c o (failureNumber? hook))

def lines (texts : List String) : String := String.join (texts.map (· ++ "\n"))

def Performed.outcome (json : Bool) (p : Performed) : Outcome where
  exitCode := (p.problem.map Problem.exitCode).getD 0
  output := lines (p.messages.filterMap fun x => if json then x.json? else some x.text)
  errors := lines (p.problem.toList.map fun x => if json then x.json else x.explanation)

def usage : String := "Usage: lpm [OPTIONS] <measure|calibrate|self-check> [OPTIONS]"

def version : String := "lpm 0.1.0"

/-- `hook` is the text that sets at which command the heater bank fails. -/
def run (access : FileAccess m) (hook : Option String) (arguments : List String) : m Outcome :=
  match Request.ofArguments arguments with
  | .error fault => pure ⟨2, "", lines [s!"error: {fault.message}", usage]⟩
  | .ok .help => pure ⟨0, lines [usage], ""⟩
  | .ok .version => pure ⟨0, lines [version], ""⟩
  | .ok (.run i) => do return (← perform access hook i).outcome i.json

end Calorimetry.Command
