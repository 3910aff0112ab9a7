import Calorimetry.Proofs.Tracking.Strict

/-! The slope that a calibration asks for is one that an observer sees. The measurement looks through its
tracked pulses from the newest one on, an observer is shown those that are long enough and can be found in the
window, the newest one last. As no tracked pulse is lost on the way and starts decrease, both come upon the
same pulse. -/

namespace Calorimetry
variable {α : Type} [Scalar α]

namespace Meter
variable {m : Meter α} {c : MeterSettings α}

/-- The tracked pulses that a question about the time from `since` on is about, newest first. -/
def asked (m : Meter α) (since : Duration) : Pulses α :=
  m.pulses.filter fun p => since ≤ p.start && m.settings.minimum ≤ p.length

private theorem slopeSince?_eq (m : Meter α) (since : Duration) :
    m.slopeSince? since = (m.asked since).head?.map Pulse.slope := by
  rw [slopeSince?, asked, List.head?_filter]

private theorem mem_asked {since : Duration} {p : Pulse α} :
    p ∈ m.asked since ↔ p ∈ m.pulses ∧ since ≤ p.start ∧ m.settings.minimum ≤ p.length := by
  simp [asked]

private theorem Consistent.shown_since (consistent : m.Consistent c) (since : Duration) :
    (m.snapshot.pulses.filter fun q => since ≤ q.pulse.start).map LocatedPulse.pulse =
      (m.asked since).reverse := by
  have shown := congrArg (List.filter fun p => decide (since ≤ p.start)) consistent.shown
  rw [List.filter_map, List.filter_reverse, List.filter_filter] at shown
  rw [asked, consistent.settings]
  exact shown

private theorem Consistent.head_asked (consistent : m.Consistent c) {since : Duration} {p : Pulse α}
    (first : (m.asked since).head? = some p) : ∀ q ∈ m.asked since, q = p ∨ q.start < p.start := by
  obtain ⟨older, split⟩ := List.head?_eq_some_iff.mp first
  have decreasing := consistent.starts_decrease.sublist (List.filter_sublist (l := m.pulses)
    (p := fun p => since ≤ p.start && m.settings.minimum ≤ p.length))
  change (m.asked since).Pairwise _ at decreasing
  rw [split] at decreasing ⊢
  intro q member
  rcases List.mem_cons.mp member with rfl | behind
  · exact .inl rfl
  · exact .inr ((List.pairwise_cons.mp decreasing).1 q behind)

end Meter

namespace Session

/-- At whatever moment of a session, also while rounds are in progress, the slope asked for from `since` on is
that of the last pulse of the snapshot that began at `since` or later, and there is none if there is no such
pulse. Among all tracked pulses that are long enough and began at `since` or later, it is the one that began
last. -/
theorem slope_asked_is_shown {c : MeterSettings α} {points : List (Point α)} {meter : Meter α}
    (built : Meter.ofSettings c points = .ok meter) (ops : List (Operation α)) {trace : List (Event α)}
    {now : Moment α} (passes : (Moment.before { meter := meter } ops).Passes trace now)
    (since : Duration) :
    let m := now.session.meter
    let shown := m.snapshot.pulses.filter fun q => since ≤ q.pulse.start
    m.slopeSince? since = shown.getLast?.map (fun q => q.pulse.slope) ∧
      ∀ q, shown.getLast? = some q →
        q.pulse ∈ m.pulses ∧ since ≤ q.pulse.start ∧ c.minimum ≤ q.pulse.length ∧
          ∀ p ∈ m.pulses, since ≤ p.start → c.minimum ≤ p.length →
            p = q.pulse ∨ p.start < q.pulse.start := by
  intro m shown
  obtain ⟨valid, t, _, rfl⟩ := Meter.ofSettings_eq_ok built
  have consistent := passes.consistent (MeterSettings.span_pos valid) (Meter.start_consistent c t)
  have last : shown.getLast?.map LocatedPulse.pulse = (m.asked since).head? := by
    rw [← List.getLast?_map, consistent.shown_since since, List.getLast?_reverse]
  constructor
  · rw [Meter.slopeSince?_eq, ← last, Option.map_map]
    rfl
  · intro q ends
    have first : (m.asked since).head? = some q.pulse := by rw [← last, ends, Option.map_some]
    obtain ⟨tracked, later, long⟩ := Meter.mem_asked.mp (List.mem_of_head? first)
    rw [consistent.settings] at long
    refine ⟨tracked, later, long, ?_⟩
    intro p member began lasts
    apply consistent.head_asked first p
    exact Meter.mem_asked.mpr ⟨member, began, by rwa [consistent.settings]⟩

namespace Asking

/-- Two heatings of a second, and then one that has lasted for half a second so far. -/
def ops : List (Operation Float) :=
  [.subscribe, .ingest (TwoHeatings.second 0 0), .ingest (TwoHeatings.second 1 1),
    .ingest (TwoHeatings.second 2 1), .ingest (TwoHeatings.second 3 1), .ingest (TwoHeatings.second 4 3),
    .ingest (TwoHeatings.second 5 3), .ingest (TwoHeatings.second 6 3),
    .ingest (.plain (Duration.ofMillis 6500) 4)]

def start : Moment Float := .before { meter := Meter.start TwoHeatings.settings Table.empty } ops

/-- The round for the last sample is in progress. -/
def now : Moment Float := (start.run 24).2

def meter : Meter Float := now.session.meter

end Asking

-- The newest of the three pulses is too short to be shown or asked for.
theorem slope_asked_is_shown_third_brief :
    let shown := Asking.meter.snapshot.pulses.filter fun q => Duration.ofSeconds 0 ≤ q.pulse.start
    Meter.ofSettings TwoHeatings.settings [] = .ok (Meter.start TwoHeatings.settings Table.empty) ∧
      Asking.start.Passes (Asking.start.run 24).1 Asking.now ∧ Asking.now.tasks.length = 1 ∧
      Asking.meter.pulses.map Pulse.length = [Duration.ofMillis 500, Duration.ofSeconds 1,
        Duration.ofSeconds 1] ∧
      Asking.meter.slopeSince? (Duration.ofSeconds 0) = some 2 ∧
      Asking.meter.slopeSince? (Duration.ofSeconds 0) = shown.getLast?.map (fun q => q.pulse.slope) ∧
      ∃ q, shown.getLast? = some q ∧ q.pulse.start = Duration.ofSeconds 3 ∧
        ∀ p ∈ Asking.meter.pulses, Duration.ofSeconds 0 ≤ p.start →
          TwoHeatings.settings.minimum ≤ p.length → p = q.pulse ∨ p.start < q.pulse.start := by
  intro shown
  have reached := Moment.run_passes 24 Asking.start
  obtain ⟨asked, greatest⟩ :=
    slope_asked_is_shown TwoHeatings.built Asking.ops reached (Duration.ofSeconds 0)
  have last : (shown.getLast?.map fun q => q.pulse.start) = some (Duration.ofSeconds 3) := by decide
  obtain ⟨q, ends, began⟩ := Option.map_eq_some_iff.mp last
  exact ⟨TwoHeatings.built, reached, by decide, by decide, by decide +kernel, asked, q, ends, began,
    (greatest q ends).2.2.2⟩

end Session
end Calorimetry
