import Calorimetry.Session
import Calorimetry.Source

/-! Draining a source into a session. A read that times out is tried again; the end of the stream
and any other error shut the session down and end the acquisition. -/

namespace Calorimetry

/-- `ingested` counts the samples handed over, refused ones included. -/
structure Acquisition (σ α : Type) [Scalar α] where
  source : σ
  session : Session α
  ingested : Nat := 0
  finished : Bool := false

namespace Acquisition
variable {σ α : Type} [Scalar α]

def step (source : Source σ α) (timeout : Duration) (a : Acquisition σ α) : Acquisition σ α :=
  let (r, state) := source.read timeout a.source
  let a := { a with source := state }
  match r with
  | .ok (some s) => { a with session := a.session.ingest s, ingested := a.ingested + 1 }
  | .ok none => { a with session := a.session.shutdown, finished := true }
  | .error e =>
    if DeviceError.ofHardware e = .timeout then a
    else { a with session := a.session.shutdown, finished := true }

/-- Reads until finished, and stops after so many reads if that comes first. -/
def run (source : Source σ α) (timeout : Duration) : Nat → Acquisition σ α → Acquisition σ α
  | 0, a => a
  | reads + 1, a => if a.finished then a else run source timeout reads (step source timeout a)

end Acquisition
end Calorimetry
