import Calorimetry.Pulse

/-! Reports each pulse once, when it is first seen ended. A pulse is known by its start. -/

namespace Calorimetry

/-- `seen` holds the starts of the pulses that were reported. -/
structure Reporter where
  seen : List Duration := []
  deriving DecidableEq

def Reporter.report {α : Type} (r : Reporter) :
    List (LocatedPulse α) → List (LocatedPulse α) × Reporter
  | [] => ([], r)
  | p :: rest =>
    if p.pulse.phase = .growing || r.seen.contains p.pulse.start then r.report rest
    else
      let (reported, r) := Reporter.report ⟨p.pulse.start :: r.seen⟩ rest
      (p :: reported, r)

end Calorimetry
