import Calorimetry.Proofs.Config
import Calorimetry.Proofs.Scalar.Size
import Calorimetry.Proofs.Tracking.Openings
import Calorimetry.Proofs.Tracking.Phases
import Calorimetry.Proofs.Tracking.Strict

/-! Which meters can show a pulse at all. A pulse lasts from one sample of the window to a later one, so it is
longer than no time and shorter than the window: if the minimum leaves no time between the two, nothing is
ever shown. Otherwise two samples are enough, as far apart as the minimum asks and with all that a double can
hold between their readings. Of the configurations without a fault those are left out whose minimum is, in
whole nanoseconds, the window itself, and those whose window is a single nanosecond. -/

namespace Calorimetry

private theorem Window.Sound.exists_newest {α : Type} [Scalar α] {w : Window α} (sound : w.Sound) {b : Sample α}
    (member : b ∈ w.samples) : ∃ z, w.newest? = some z ∧ b.time ≤ z.time := by
  obtain ⟨j, bound, rfl⟩ := List.mem_iff_getElem.mp member
  have least : w.samples.length - 1 < w.samples.length := by omega
  refine ⟨w.samples[w.samples.length - 1], ?_, ?_⟩
  · rw [newest?_eq, List.getLast?_eq_getElem?, List.getElem?_eq_getElem least]
  · exact (sound.time_le_iff (List.getElem?_eq_getElem bound) (List.getElem?_eq_getElem least)).mpr (by omega)

namespace Meter
variable {α : Type} [Scalar α] {m : Meter α} {c : MeterSettings α}

/-! ## No pulse is as long as the window -/

/-- Consistent, and with no sample a span older than the newest one. -/
structure Current (c : MeterSettings α) (m : Meter α) : Prop extends m.Consistent c where
  recent : m.Recent

private theorem start_current (c : MeterSettings α) (t : Table α) : (start c t).Current c where
  toConsistent := start_consistent c t
  recent := start_recent c t

private theorem Change.current {next : Meter α} (change : Change m next) (positive : 0 < c.span)
    (current : m.Current c) : next.Current c := by
  refine ⟨change.consistent positive current.toConsistent, ?_⟩
  cases change with
  | record x _ accepted =>
    have fed : m.feed x = next := by
      rw [feed, accepted]
      rfl
    rw [← fed]
    exact feed_recent current.toConsistent positive current.recent x
  | clear =>
    intro _ newest
    cases newest
  | withTable t => exact current.recent

private theorem Current.length_lt (current : m.Current c) {p : Pulse α} (tracked : p ∈ m.pulses) :
    0 < p.length ∧ p.length < c.span := by
  obtain ⟨i, j, spans⟩ := current.placed.spans p tracked
  obtain ⟨a, first, start⟩ := Window.sample_of_indexOf? _ _ _ spans.start
  obtain ⟨b, last, stop⟩ := Window.sample_of_indexOf? _ _ _ spans.stop
  have before := current.sound.time_lt first last spans.ordered
  obtain ⟨z, newest, notAfter⟩ := current.sound.exists_newest (List.mem_of_getElem? last)
  have latest : m.latestTime? = some z.time := congrArg (Option.map Sample.time) newest
  have young := current.recent z.time latest a (List.mem_of_getElem? first)
  rw [current.span] at young
  rw [Pulse.length, ← start, ← stop]
  exact ⟨Nat.sub_pos_of_lt before,
    Nat.sub_lt_left_of_lt_add (Nat.le_of_lt before) (Nat.lt_of_le_of_lt notAfter young)⟩

/-- There has to be a whole number of nanoseconds from the minimum on, and not zero, below the span. -/
private theorem Current.shows_nothing (current : m.Current c) (cramped : c.span ≤ max 1 c.minimum) :
    m.snapshot.pulses = [] := by
  have none : (m.pulses.filter fun p => c.minimum ≤ p.length) = [] := by
    refine List.filter_eq_nil_iff.mpr fun p tracked => ?_
    obtain ⟨lasting, short⟩ := current.length_lt tracked
    rw [decide_eq_true_iff]
    intro long
    have reached : max 1 c.minimum ≤ p.length := Nat.max_le.mpr ⟨lasting, long⟩
    exact Nat.not_lt_of_le (Nat.le_trans cramped reached) short
  have shown := current.shown
  rw [none] at shown
  exact List.map_eq_nil_iff.mp shown

/-! ## One rise is enough -/

private theorem Heats.shows {first last : Sample α} {line : List (Sample α)} (heats : m.Heats c first last line)
    (long : c.minimum ≤ last.time - first.time) : m.snapshot.pulses ≠ [] := by
  obtain ⟨p, older, pulses, _, start, stop⟩ := heats.newest
  have counts : p ∈ m.pulses.filter fun p => c.minimum ≤ p.length := by
    rw [pulses]
    refine List.mem_filter.mpr ⟨List.mem_cons_self, decide_eq_true ?_⟩
    rw [Pulse.length, start, stop]
    exact long
  have shown := heats.faithful.shown
  intro nothing
  rw [← List.mem_reverse, ← shown, nothing] at counts
  cases counts

private theorem shows_rise (c : MeterSettings α) (t : Table α) {a b : Sample α}
    (finite : Scalar.isFinite a.reading = true) (finite' : Scalar.isFinite b.reading = true)
    (long : c.minimum ≤ b.time - a.time) (later : a.time < b.time)
    (recent : b.time < a.time + c.span) (hot : Scalar.lt c.threshold (Window.rateBetween a b) = true) :
    ([a, b].foldl feed (start c t)).snapshot.pulses ≠ [] := by
  have positive : 0 < c.span := Nat.pos_of_lt_add_right (Nat.lt_trans later recent)
  obtain ⟨faithful, alone, none⟩ := start_feed c t positive finite
  have last : [a] <:+ ((start c t).feed a).window.samples := by
    rw [alone]
  obtain ⟨n, steps⟩ := feed_steps faithful positive last finite' later recent
  have idle : ((start c t).feed a).Idle c.reach := by
    intro p member
    rw [none] at member
    cases member
  have heats := steps.begins faithful idle last positive recent hot
  exact heats.shows long

end Meter

namespace MeterSettings

private theorem never_shows {α : Type} [Scalar α] {c : MeterSettings α} (positive : 0 < c.span)
    (cramped : c.span ≤ max 1 c.minimum) (t : Table α) (ops : List (Session.Operation α))
    {trace : List (Session.Event α)} {now : Session.Moment α}
    (passes : (Session.Moment.before { meter := Meter.start c t } ops).Passes trace now) :
    now.session.meter.snapshot.pulses = [] := by
  have current : now.session.meter.Current c :=
    passes.leads.keeps (Meter.start_current c t) fun _ _ change => change.current positive
  exact current.shows_nothing cramped

variable {c : MeterSettings Float}

/-- From the lowest reading to the highest the rate is infinite, however long it takes. -/
private theorem lt_steepest (valid : c.fault? = none) {d : Duration} (le : d ≤ Duration.limit) :
    Scalar.lt c.threshold
      (Window.rateBetween (.plain 0 Binary64.lowest) (.plain d Binary64.greatest)) = true := by
  have finite : c.threshold.isFinite = true := (Bool.and_eq_true_iff.mp (isPositive_threshold valid)).1
  have steepest : Window.rateBetween (.plain 0 Binary64.lowest) (.plain d Binary64.greatest) =
      Binary64.infinity := by
    change (Binary64.greatest - Binary64.lowest) / Duration.seconds d = _
    rw [Binary64.greatest_sub_lowest]
    exact Binary64.infinity_div (Binary64.seconds_within le)
  rw [steepest]
  exact decide_eq_true (Binary64.lt_infinity finite)

private theorem can_show (valid : c.fault? = none) (room : max 1 c.minimum < c.span)
    (fits : c.span ≤ Duration.limit) (t : Table Float) : ∃ stream : List (Sample Float), (∀ x ∈ stream, x.time ≤ Duration.limit) ∧
      (stream.foldl Session.ingest { meter := Meter.start c t }).meter.snapshot.pulses ≠ [] := by
  have brief : max 1 c.minimum ≤ Duration.limit := Nat.le_trans (Nat.le_of_lt room) fits
  have finite : Scalar.isFinite Binary64.lowest = true ∧ Scalar.isFinite Binary64.greatest = true := by decide
  refine ⟨[.plain 0 Binary64.lowest, .plain (max 1 c.minimum) Binary64.greatest], ?_, ?_⟩
  · exact List.forall_mem_cons.mpr ⟨Nat.zero_le _, List.forall_mem_singleton.mpr brief⟩
  · rw [Session.ingest_all_passive _ _ (fun _ none => absurd none List.not_mem_nil)]
    refine Meter.shows_rise c t finite.1 finite.2 (Nat.le_max_right _ _) (Nat.le_max_left _ _) ?_
      (lt_steepest valid brief)
    change max 1 c.minimum < 0 + c.span
    rw [Nat.zero_add]
    exact room

end MeterSettings

namespace Config

private theorem Measurement.Sound.settings_bounds {m : Measurement} (sound : m.Sound) {s : MeterSettings Float}
    (built : m.settings = .ok s) : s.minimum ≤ s.span ∧ s.span ≤ Duration.limit := by
  cases window : Duration.ofSeconds? m.windowSeconds with
  | none =>
    rw [settings, duration, window] at built
    cases built
  | some span =>
    obtain ⟨minimum, le, same⟩ := sound.settings_of_time window
    rw [same] at built
    split at built
    · cases built
    · cases built
      exact ⟨le, Duration.ofSeconds?_le_limit (Binary64.nonneg_of_isPositive sound.window) window⟩

private theorem Measurement.meter_eq_ok {m : Measurement} {points : List (Point Float)} {meter : Meter Float}
    (built : m.meter points = .ok meter) : ∃ s t, m.settings = .ok s ∧ s.fault? = none ∧ meter = .start s t := by
  rw [Measurement.meter] at built
  cases converted : m.settings with
  | error e =>
    rw [converted] at built
    cases built
  | ok s =>
    rw [converted] at built
    change Meter.ofSettings s points = .ok meter at built
    obtain ⟨valid, t, _, rfl⟩ := Meter.ofSettings_eq_ok built
    exact ⟨s, t, rfl, valid, rfl⟩

/-- A configuration without a fault shows a pulse for some stream, unless its minimum is its whole window or
its window is a single nanosecond. Then whatever is done to the session, also while rounds are in progress,
there is never a pulse to be seen. -/
theorem pulses_can_show {c : Config} (faultless : c.fault? = none) {points : List (Point Float)}
    {meter : Meter Float} (built : c.measurement.meter points = .ok meter) :
    (meter.settings.minimum ≠ meter.settings.span → meter.settings.span ≠ 1 →
      ∃ stream : List (Sample Float), (∀ x ∈ stream, x.time ≤ Duration.limit) ∧
        (stream.foldl Session.ingest { meter := meter }).meter.snapshot.pulses ≠ []) ∧
    (meter.settings.minimum = meter.settings.span ∨ meter.settings.span = 1 →
      ∀ (ops : List (Session.Operation Float)) (trace : List (Session.Event Float))
        (now : Session.Moment Float),
        (Session.Moment.before { meter := meter } ops).Passes trace now →
        now.session.meter.snapshot.pulses = []) := by
  obtain ⟨s, t, converted, valid, rfl⟩ := Measurement.meter_eq_ok built
  obtain ⟨shorter, fits⟩ := (sound_of_fault? faultless).measurement.settings_bounds converted
  have positive := MeterSettings.span_pos valid
  change (s.minimum ≠ s.span → s.span ≠ 1 → _) ∧ (s.minimum = s.span ∨ s.span = 1 → _)
  constructor
  · intro less several
    have room : max 1 s.minimum < s.span :=
      Nat.max_lt.mpr ⟨Nat.lt_of_le_of_ne positive (Ne.symm several), Nat.lt_of_le_of_ne shorter less⟩
    exact s.can_show valid room fits t
  · intro exception ops trace now passes
    have cramped : s.span ≤ max 1 s.minimum := by
      rcases exception with whole | single
      · rw [← whole]
        exact Nat.le_max_right _ _
      · rw [single]
        exact Nat.le_max_left _ _
    exact s.never_shows positive cramped t ops passes

theorem pulses_can_show_usual : ({} : Config).fault? = none ∧ ∃ meter,
    ({} : Config).measurement.meter [] = .ok meter ∧ ∃ stream : List (Sample Float),
      (∀ x ∈ stream, x.time ≤ Duration.limit) ∧
        (stream.foldl Session.ingest { meter := meter }).meter.snapshot.pulses ≠ [] := by
  have faultless : ({} : Config).fault? = none := by decide
  have built : ({} : Config).measurement.meter [] = .ok (Meter.start {} Table.empty) := by
    have window : Duration.ofSeconds? 10.0 = some (Duration.ofSeconds 10) := by decide
    have least : Duration.ofSeconds? 1.0 = some (Duration.ofSeconds 1) := by decide
    rw [Measurement.meter, Measurement.settings, duration, duration, window, least]
    rfl
  exact ⟨faultless, _, built, (pulses_can_show faultless built).1 (by decide) (by decide)⟩

/-- Pulses are to last a second at least, which is all that the window holds. -/
def tight : Measurement := { windowSeconds := 1.0, minPulseDuration := 1.0 }

theorem tight_window_shows_nothing : ({ measurement := tight } : Config).fault? = none ∧
    ∃ meter, tight.meter [] = .ok meter ∧
      ∀ (ops : List (Session.Operation Float)) (trace : List (Session.Event Float))
        (now : Session.Moment Float),
        (Session.Moment.before { meter := meter } ops).Passes trace now →
        now.session.meter.snapshot.pulses = [] := by
  have built : tight.meter [] =
      .ok (Meter.start { span := Duration.ofSeconds 1, minimum := Duration.ofSeconds 1 } Table.empty) := by
    have second : Duration.ofSeconds? 1.0 = some (Duration.ofSeconds 1) := by decide
    rw [Measurement.meter, Measurement.settings, duration, duration, tight, second]
    rfl
  refine ⟨by decide, _, built, fun ops _ _ passes => ?_⟩
  exact MeterSettings.never_shows (by decide) (by decide) Table.empty ops passes

end Config
end Calorimetry
