import Calorimetry.Tracking

/-! The measurement itself, without observers: each accepted sample moves the window, then the
pulses, then the fits of those that still change. -/

namespace Calorimetry

structure Meter (α : Type) [Scalar α] where
  settings : MeterSettings α
  window : Window α
  pulses : Pulses α := []
  table : Table α := Table.empty

/-- What a reader sees at one moment, with all pulses that are `tracked`. -/
structure Snapshot (α : Type) where
  window : Window α
  tracked : Pulses α
  minimum : Duration

namespace Snapshot
variable {α : Type}

def samples (s : Snapshot α) : List (Sample α) := s.window.samples

def rates (s : Snapshot α) : List α := s.window.rates

def latest? (s : Snapshot α) : Option Duration := s.window.newest?.map Sample.time

/-- Pulses shorter than the minimum are not shown. The others come oldest first. -/
def pulses (s : Snapshot α) : List (LocatedPulse α) :=
  let samples := s.samples
  (s.tracked.filter fun p => s.minimum ≤ p.length).reverse.filterMap (·.locate? samples)

end Snapshot

namespace Meter
variable {α : Type} [Scalar α]

def start (c : MeterSettings α) (t : Table α) : Meter α :=
  { settings := c, window := { span := c.span }, table := t }

/-- Refuses bad settings before a bad table. -/
def ofSettings (c : MeterSettings α) (points : List (Point α)) : Except ConfigError (Meter α) :=
  match c.fault? with
  | some e => .error e
  | none => (Table.ofPoints points).map (start c)

def fitPulse (m : Meter α) (w : Window α) (p : Pulse α) : Pulse α :=
  (p.refit m.settings.outlierFactor w).annotate m.table

/-- The pulses after the window has moved to `w` and lost `dropped` samples. -/
def follow (m : Meter α) (w : Window α) (dropped : Nat) : Pulses α :=
  let kept := if dropped = 0 then m.pulses else m.pulses.dropExpired w
  ((kept.advance m.settings w).revise (some ∘ m.fitPulse w)).settle m.settings.minimum

def record (m : Meter α) (s : Sample α) : Except Anomaly (Meter α) :=
  (m.window.push s).map fun (w, dropped) => { m with window := w, pulses := m.follow w dropped }

def snapshot (m : Meter α) : Snapshot α := ⟨m.window, m.pulses, m.settings.minimum⟩

def clear (m : Meter α) : Meter α := { m with window := m.window.clear, pulses := [] }

def withTable (m : Meter α) (t : Table α) : Meter α :=
  { m with table := t, pulses := m.pulses.map (·.annotate t) }

def latestTime? (m : Meter α) : Option Duration := m.window.newest?.map Sample.time

/-- Slope of the most recent pulse, of those long enough, that began at `since` or later. -/
def slopeSince? (m : Meter α) (since : Duration) : Option α :=
  let counts (p : Pulse α) : Bool := since ≤ p.start && m.settings.minimum ≤ p.length
  (m.pulses.find? counts).map Pulse.slope

end Meter
end Calorimetry
