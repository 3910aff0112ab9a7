import Calorimetry.Proofs.Tracking.Annotation
import Calorimetry.Proofs.Tracking.Rendition

/-! A measurement does not know when its stream began. Only differences of times count in it, and whether
one span has passed since time zero decides nothing. A stream that comes later is measured as the same
stream is that comes earlier. -/

namespace Calorimetry
variable {α : Type}

def Sample.delayed (d : Duration) (s : Sample α) : Sample α := { s with time := s.time + d }

namespace Pulse

def delayed (d : Duration) (p : Pulse α) : Pulse α :=
  { p with start := p.start + d, stop := p.stop + d }

private theorem length_delayed (d : Duration) (p : Pulse α) : (p.delayed d).length = p.length :=
  Nat.add_sub_add_right p.stop d p.start

end Pulse

def LocatedPulse.delayed (d : Duration) (p : LocatedPulse α) : LocatedPulse α :=
  { p with pulse := p.pulse.delayed d }

private theorem eq_map_of_forall₂ {β : Type} {R : β → β → Prop} {holds : β → Prop} {f : β → β} {xs ys : List β}
    (alike : List.Forall₂ R xs ys) (left : ∀ x ∈ xs, holds x) (right : ∀ y ∈ ys, holds y)
    (image : ∀ x y, R x y → holds x → holds y → y = f x) : ys = xs.map f := by
  induction alike with
  | nil => rfl
  | @cons x y xs ys related _ ih =>
    obtain ⟨first, others⟩ := List.forall_mem_cons.mp left
    obtain ⟨first', others'⟩ := List.forall_mem_cons.mp right
    rw [List.map_cons, ← ih others others', ← image x y related first first']

namespace Rendition

/-- The same readings, at times counted from an origin `d` earlier. -/
def delayed (α : Type) (d : Duration) : Rendition α := ⟨d, id, id⟩

private theorem delayed_suits [Scalar α] (d : Duration) (c : MeterSettings α) : (delayed α d).Suits c c where
  span := rfl
  minimum := rfl
  reach := rfl
  hot _ := rfl
  finite _ := rfl
  zero := rfl
  sum := rfl
  quotient _ _ _ := rfl
  adds _ _ _ := rfl
  line points := by
    have same : points.map (Prod.map id (delayed α d).reading) = points := List.map_id points
    rw [same]
    exact ⟨rfl, rfl⟩

variable [Scalar α] {d : Duration} {t : Table α}

private theorem Renders.eq_delayed {p q : Pulse α} (renders : (delayed α d).Renders p q)
    (priced : p.PricedBy t) (priced' : q.PricedBy t) : q = p.delayed d := by
  obtain ⟨start, stop, rate, phase, fit⟩ := renders
  have power : q.power = p.power := by
    have slope : q.slope = p.slope := congrArg PulseFit.slope fit
    rw [priced, priced', slope]
  cases q
  cases start
  cases stop
  cases rate
  cases phase
  cases Thunk.ext fit
  cases Thunk.ext power
  rfl

private theorem Shows.eq_delayed {p q : LocatedPulse α} (shows : (delayed α d).Shows p q)
    (priced : p.pulse.PricedBy t) (priced' : q.pulse.PricedBy t) : q = p.delayed d := by
  have pulse := shows.pulse.eq_delayed priced priced'
  obtain ⟨first, last, _⟩ := shows
  cases q
  cases first
  cases last
  cases pulse
  rfl

end Rendition

namespace Session
variable [Scalar α] {c : MeterSettings α} {s : Session α}

private theorem ingest_all_priced (positive : 0 < c.span) (priced : s.meter.Priced c) (passive : s.Passive)
    (stream : List (Sample α)) :
    ∀ p ∈ (stream.foldl ingest s).meter.pulses, p.PricedBy s.meter.table := by
  have leads : Leads s (stream.foldl ingest s) := ingest_all_leads ingest ingest_leads stream s
  have kept : (stream.foldl ingest s).meter.Priced c :=
    leads.keeps priced fun _ _ change => change.priced positive
  have table : (stream.foldl ingest s).meter.table = s.meter.table := by
    rw [ingest_all_passive stream s passive, Meter.feed_all_table]
  exact table ▸ kept.priced

/-- After every sample of a stream that comes `d` later, a new session has the samples and pulses of the one
without delay, each `d` later, and whatever else it tells is the very same. Nothing about the arithmetic of
readings is made use of. -/
theorem delayed_stream_measured_alike {points : List (Point α)} {m : Meter α}
    (built : Meter.ofSettings c points = .ok m) (s : Session α) (fresh : s.meter = m)
    (passive : s.Passive) (stream : List (Sample α)) (d : Duration) :
    let here := stream.foldl ingest s
    let there := (stream.map (Sample.delayed d)).foldl ingest s
    there.anomalies = here.anomalies ∧
      there.meter.snapshot.samples = here.meter.snapshot.samples.map (Sample.delayed d) ∧
      there.meter.snapshot.rates = here.meter.snapshot.rates ∧
      there.meter.pulses = here.meter.pulses.map (Pulse.delayed d) ∧
      there.meter.snapshot.pulses = here.meter.snapshot.pulses.map (LocatedPulse.delayed d) ∧
      there.meter.snapshot.pulses.map (·.pulse.length) =
        here.meter.snapshot.pulses.map (·.pulse.length) ∧
      ∀ t, there.meter.slopeSince? (t + d) = here.meter.slopeSince? t := by
  intro here there
  obtain ⟨valid, t, _, rfl⟩ := Meter.ofSettings_eq_ok built
  have suits := Rendition.delayed_suits d c
  have begun : (Rendition.delayed α d).Accompanies c c s s :=
    ⟨fresh ▸ Rendition.start_tells suits t t, passive, passive, rfl⟩
  have alike : (Rendition.delayed α d).Accompanies c c here there := begun.ingest_all suits stream
  have priced := ingest_all_priced (MeterSettings.span_pos valid) (fresh ▸ Meter.start_priced c t) passive
  have tracked := eq_map_of_forall₂ alike.tells.pulses (priced stream) (priced _)
    fun _ _ renders => renders.eq_delayed
  have shown := eq_map_of_forall₂ (alike.tells.shows suits)
    (fun p shown => priced stream _ (Meter.located_tracked shown))
    (fun q shown => priced _ _ (Meter.located_tracked shown)) fun _ _ shows => shows.eq_delayed
  refine ⟨alike.anomalies, alike.tells.views.samples, ?_, tracked, shown, ?_, ?_⟩
  · exact alike.tells.views.rates.trans (List.map_id _)
  · rw [shown, List.map_map]
    exact List.map_congr_left fun p _ => p.pulse.length_delayed d
  · intro since
    exact (alike.tells.slopeSince? suits since).trans (congrFun Option.map_id _)

namespace EarlyStart

def session : Session Float :=
  { meter := Meter.start TwoHeatings.settings ⟨[⟨0, 0⟩, ⟨1, 10⟩], by decide⟩ }

/-- Only with the last sample one span has passed since time zero. Five seconds later it has passed with the
one before. -/
def stream : List (Sample Float) :=
  [TwoHeatings.second 0 0, TwoHeatings.second 1 0, TwoHeatings.second 2 0, TwoHeatings.second 3 1,
    TwoHeatings.second 3 7, TwoHeatings.second 4 1, TwoHeatings.second 5 1, TwoHeatings.second 6 2,
    TwoHeatings.second 11 2]

def delay : Duration := Duration.ofSeconds 5

end EarlyStart

theorem delayed_stream_measured_alike_early :
    let here := EarlyStart.stream.foldl ingest EarlyStart.session
    let there := (EarlyStart.stream.map (Sample.delayed EarlyStart.delay)).foldl ingest
      EarlyStart.session
    Meter.ofSettings TwoHeatings.settings [⟨0, 0⟩, ⟨1, 10⟩] = .ok EarlyStart.session.meter ∧
      EarlyStart.session.Passive ∧ here.anomalies = 1 ∧ there.anomalies = here.anomalies ∧
      here.meter.window.size = 6 ∧
      here.meter.snapshot.pulses.map (fun p => (p.first, p.last, p.pulse.power)) =
        [(0, 1, some 10), (3, 4, some 10)] ∧
      there.meter.snapshot.pulses =
        here.meter.snapshot.pulses.map (LocatedPulse.delayed EarlyStart.delay) ∧
      here.meter.slopeSince? (Duration.ofSeconds 5) = some 1 ∧
      there.meter.slopeSince? (Duration.ofSeconds 5 + EarlyStart.delay) =
        here.meter.slopeSince? (Duration.ofSeconds 5) := by
  have built : Meter.ofSettings TwoHeatings.settings [⟨0, 0⟩, ⟨1, 10⟩] =
      .ok EarlyStart.session.meter := rfl
  have passive : EarlyStart.session.Passive := fun _ member => absurd member List.not_mem_nil
  obtain ⟨refused, _, _, _, shown, _, slope⟩ := delayed_stream_measured_alike built EarlyStart.session
    rfl passive EarlyStart.stream EarlyStart.delay
  exact ⟨built, passive, by decide, refused, by decide, by decide +kernel, shown, by decide +kernel,
    slope _⟩

end Session
end Calorimetry
