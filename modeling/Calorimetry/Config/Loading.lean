import Calorimetry.Config.Decoding
import Calorimetry.Files
import Calorimetry.Text.Quoted
import Calorimetry.Text.Utf8

/-! A configuration out of a file. Without the file every value is the one that it has when nothing
is said. -/

namespace Calorimetry
open Text

inductive Config.LoadFault where
  | unreadable (reason : String)
  | malformed
  deriving DecidableEq

def Config.LoadFault.message (path : FilePath) : Config.LoadFault → String
  | unreadable reason => s!"read config {Quoted.quoted path.text}: {reason}"
  | malformed => s!"parse config {Quoted.quoted path.text}: not a configuration"

def Config.ofRead : Except FileFault (List UInt8) → Except Config.LoadFault Config
  | .error .notFound => .ok {}
  | .error fault => .error (.unreadable fault.message)
  | .ok bytes =>
    match Utf8.decode? bytes with
    | none => .error (.unreadable "stream did not contain valid UTF-8")
    | some cs =>
      match Config.ofText? (String.ofList cs) with
      | none => .error .malformed
      | some c => .ok c

end Calorimetry
