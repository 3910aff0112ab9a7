import Calorimetry.Pulse
import Calorimetry.Settings

/-! Following pulses through the window. A rate above the threshold extends the growing pulse or
begins one, a pulse whose end is out of reach is ended, and ended pulses are frozen or, if too
short, dropped. -/

namespace Calorimetry

/-- Newest first. Only the first one can be growing, and the frozen ones come last. -/
abbrev Pulses (α : Type) := List (Pulse α)

namespace Pulses
variable {α : Type}

def growing? (ps : Pulses α) : Option (Pulse α) := ps.head?.filter (·.phase = .growing)

def dropExpired (w : Window α) (ps : Pulses α) : Pulses α :=
  match w.oldest? with
  | none => []
  | some oldest => ps.filter fun p => oldest.time ≤ p.start

/-- Applies `f` to the pulses before the first frozen one, and leaves out those without a result. -/
def revise (f : Pulse α → Option (Pulse α)) : Pulses α → Pulses α
  | [] => []
  | p :: older =>
    if p.phase = .frozen then p :: older else (f p).toList ++ revise f older

/-- An ended pulse is frozen, or dropped if it is too short. -/
def settleOne (minimum : Duration) (p : Pulse α) : Option (Pulse α) :=
  if p.phase ≠ .ending then some p
  else if p.length < minimum then none
  else some { p with phase := .frozen }

def settle (minimum : Duration) (ps : Pulses α) : Pulses α := ps.revise (settleOne minimum)

def newlyFrozen (minimum : Duration) (ps : Pulses α) : Pulses α :=
  (ps.filter (·.phase = .ending)).filterMap (settleOne minimum)

variable [Scalar α]

def advance (c : MeterSettings α) (w : Window α) (ps : Pulses α) : Pulses α :=
  match w.latestRate?, w.lastTwo? with
  | some rate, some (a, b) =>
    let hot := Scalar.lt c.threshold rate
    let begun (ps : Pulses α) : Pulses α :=
      if hot then Pulse.begin a.time b.time rate :: ps else ps
    match ps with
    | [] => begun []
    | p :: older =>
      if p.phase ≠ .growing then begun ps
      else if (w.countAfter? p.stop).getD 0 ≤ c.reach then
        if hot then { p with stop := b.time, rate := rate } :: older else ps
      else begun ({ p with phase := .ending } :: older)
  | _, _ => ps

end Pulses
end Calorimetry
