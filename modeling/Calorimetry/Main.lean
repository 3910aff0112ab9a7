import Calorimetry.Command.Run

/-! The program on the files and streams of the machine. Of a program that measures there are no log
output and no threads here, and time is that of the simulated head; what readers of TOML and CSV say of
a text they refuse is told without their own words. -/

namespace Calorimetry

/-- Some calls give the number of an error as a negative one. -/
private def faultOfNumber (code : UInt32) (details : String) : FileFault :=
  match (min code (-code)).toNat with
  | 2 => .notFound
  | 16 => .busy
  | 20 => .notDirectory
  | 21 => .isDirectory
  | 36 => .nameTooLong
  | _ => .other details

private def faultOf : IO.Error → FileFault
  | .noFileOrDirectory .. => .notFound
  | .inappropriateType _ code details => faultOfNumber code details
  | .invalidArgument _ code details => faultOfNumber code details
  | .resourceBusy code details => faultOfNumber code details
  | e => .other (toString e)

private def attempt {β : Type} (action : IO β) : IO (Except FileFault β) := do
  match ← action.toBaseIO with
  | .ok v => return .ok v
  | .error e => return .error (faultOf e)

private def performStep : FileStep → IO Unit
  | .create path => IO.FS.writeBinFile path.text ByteArray.empty
  | .write path bytes => do
    let handle ← IO.FS.Handle.mk path.text .append
    handle.write ⟨bytes.toArray⟩
  | .sync path => do
    let handle ← IO.FS.Handle.mk path.text .append
    handle.flush
  | .rename source target => IO.FS.rename source.text target.text

def machineFiles : FileAccess IO where
  read path := attempt do return (← IO.FS.readBinFile path.text).toList
  perform step := attempt (performStep step)

end Calorimetry

open Calorimetry in
def main (arguments : List String) : IO UInt32 := do
  let hook ← IO.getEnv "LPM_SIM_FAIL_SWITCH_ON"
  let outcome ← Command.run machineFiles hook arguments
  IO.print outcome.output
  IO.eprint outcome.errors
  return outcome.exitCode.toUInt32
