import Calorimetry.Duration

/-! One processed measurement. -/

namespace Calorimetry

/-- `time` counts from the start of the stream, `reading` is the thermopile's differential
voltage, `voltage` the heater supply and `heaterPower` the watts dissipated by the heaters. -/
structure Sample (α : Type) where
  time : Duration
  reading : α
  voltage : α
  heaterPower : α
  deriving DecidableEq

namespace Sample
variable {α : Type}

/-- A reading taken with the heaters off. -/
def plain [Scalar α] (time : Duration) (reading : α) : Sample α := ⟨time, reading, 0, 0⟩

def indexOf? (samples : List (Sample α)) (t : Duration) : Option Nat :=
  samples.findIdx? fun s => s.time = t

end Sample
end Calorimetry
