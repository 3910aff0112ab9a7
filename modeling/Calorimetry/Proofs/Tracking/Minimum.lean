import Calorimetry.Proofs.Stream

/-! Two measurements of one stream that differ in the minimum. The one with the greater minimum drops pulses
that the other one freezes. A frozen pulse has no say in how later ones begin, go on and end, so the
measurement with the greater minimum stays what is left of the other one without its frozen pulses that are
too short. -/

namespace Calorimetry
variable {α : Type} [Scalar α]

def MeterSettings.withMinimum (minimum : Duration) (c : MeterSettings α) : MeterSettings α :=
  { c with minimum }

namespace Pulse

omit [Scalar α]

/-- Whether a pulse is tracked under this minimum. -/
def lasts (minimum : Duration) (p : Pulse α) : Bool := p.phase ≠ .frozen || minimum ≤ p.length

private theorem lasts_of_frozen {minimum : Duration} {p : Pulse α} (frozen : p.phase = .frozen) :
    p.lasts minimum = decide (minimum ≤ p.length) := by
  rw [lasts, frozen]
  rfl

private theorem locate?_filter (minimum : Duration) (samples : List (Sample α)) (p : Pulse α) :
    ((p.locate? samples).filter fun q => minimum ≤ q.pulse.length) =
      if minimum ≤ p.length then p.locate? samples else none := by
  cases found : p.locate? samples with
  | none => simp
  | some q => simp [Option.filter, pulse_of_locate? found]

end Pulse

namespace Pulses
variable {minimum : Duration}

omit [Scalar α]

private theorem dropExpired_filter (f : Pulse α → Bool) (w : Window α) (ps : Pulses α) :
    dropExpired w (ps.filter f) = (ps.dropExpired w).filter f := by
  rw [dropExpired, dropExpired]
  cases w.oldest? with
  | none => rfl
  | some oldest => exact List.filter_comm _ _ _

private theorem frozen_filter {ps : Pulses α} (frozen : ∀ p ∈ ps, p.phase = .frozen) (f : Pulse α → Bool) :
    ∀ p ∈ ps.filter f, p.phase = .frozen :=
  fun p member => frozen p (List.mem_of_mem_filter member)

private theorem filter_lasts_cons {p : Pulse α} (growing : p.phase = .growing) (older : Pulses α) :
    (p :: older).filter (Pulse.lasts minimum) = p :: older.filter (Pulse.lasts minimum) := by
  apply List.filter_cons_of_pos
  rw [Pulse.lasts, growing]
  rfl

end Pulses

namespace Meter
variable {m : Meter α} {c : MeterSettings α} {minimum : Duration} {w : Window α} {a b : Sample α}
  {kept next : Pulses α}

/-- The measurement with another minimum, without the frozen pulses that fall short of it. -/
def withMinimum (minimum : Duration) (m : Meter α) : Meter α :=
  { m with settings := m.settings.withMinimum minimum, pulses := m.pulses.filter (·.lasts minimum) }

private theorem begun_withMinimum (older : Pulses α) :
    (m.begun w a b ++ older).filter (Pulse.lasts minimum) =
      (m.withMinimum minimum).begun w a b ++ older.filter (Pulse.lasts minimum) := by
  rw [List.filter_append]
  refine congrArg (· ++ _) ?_
  change (m.begun w a b).filter _ = m.begun w a b
  rw [begun]
  split
  · exact Pulses.filter_lasts_cons rfl []
  · rfl

private theorem retired_withMinimum (longer : m.settings.minimum ≤ minimum) (p : Pulse α) :
    (m.retired w p).filter (Pulse.lasts minimum) = (m.withMinimum minimum).retired w p := by
  rw [retired, retired]
  change _ = if p.length < minimum then [] else [m.fitPulse w { p with phase := .frozen }]
  by_cases short : p.length < minimum
  · rw [if_pos short]
    split
    · rfl
    · apply List.filter_cons_of_neg
      rw [Pulse.lasts_of_frozen (fitPulse_phase m w _), decide_eq_true_eq]
      exact Nat.not_le_of_lt short
  · have long : ¬ p.length < m.settings.minimum := fun less => short (Nat.lt_of_lt_of_le less longer)
    rw [if_neg short, if_neg long]
    apply List.filter_cons_of_pos
    rw [Pulse.lasts_of_frozen (fitPulse_phase m w _), decide_eq_true_eq]
    exact Nat.le_of_not_lt short

private theorem Follows.withMinimum (longer : m.settings.minimum ≤ minimum)
    (follows : m.Follows w a b kept next) :
    (m.withMinimum minimum).Follows w a b (kept.filter (Pulse.lasts minimum))
      (next.filter (Pulse.lasts minimum)) := by
  cases follows with
  | rest _ frozen =>
    rw [begun_withMinimum]
    exact .rest _ (Pulses.frozen_filter frozen _)
  | goOn p older growing frozen near =>
    rw [Pulses.filter_lasts_cons growing, Pulses.filter_lasts_cons (by rw [grown_phase, growing])]
    exact .goOn p _ growing (Pulses.frozen_filter frozen _) near
  | finish p older growing frozen far =>
    rw [Pulses.filter_lasts_cons growing, begun_withMinimum, List.filter_append,
      retired_withMinimum longer]
    exact .finish p _ growing (Pulses.frozen_filter frozen _) far

private theorem keptPulses_withMinimum (m : Meter α) (w : Window α) (dropped : Nat) :
    (m.withMinimum minimum).keptPulses w dropped =
      (m.keptPulses w dropped).filter (Pulse.lasts minimum) := by
  rw [keptPulses, keptPulses]
  split
  · rfl
  · exact Pulses.dropExpired_filter _ w m.pulses

private theorem follow_withMinimum (consistent : m.Consistent c) (longer : c.minimum ≤ minimum)
    {x : Sample α} {n : Nat} (entered : m.window.Entered w x n) :
    (m.withMinimum minimum).follow w n = (m.follow w n).filter (Pulse.lasts minimum) := by
  rw [← consistent.settings] at longer
  rcases entered.sound.latest_cases with ⟨few, latest⟩ | ⟨_, a, b, last, latest, _, _⟩
  · have empty := kept_eq_nil consistent entered few
    have empty' : (m.withMinimum minimum).keptPulses w n = [] := by
      rw [keptPulses_withMinimum, empty]
      rfl
    rw [follow_of_no_rate m w n latest (by simp [empty]),
      follow_of_no_rate _ w n latest (by simp [empty']), keptPulses_withMinimum]
  · -- What the sample does to one measurement, filtered, is a thing it can do to the other one.
    have settled : (m.withMinimum minimum).pulses.Settled :=
      consistent.settled.sublist List.filter_sublist
    have there := (m.withMinimum minimum).follow_cases w n a b settled last latest
    have here := m.follow_cases w n a b consistent.settled last latest
    rw [keptPulses_withMinimum] at there
    exact there.unique (here.withMinimum longer)

private theorem feed_withMinimum (consistent : m.Consistent c) (positive : 0 < c.span)
    (longer : c.minimum ≤ minimum) (x : Sample α) :
    (m.withMinimum minimum).feed x = (m.feed x).withMinimum minimum := by
  rw [feed, feed, record, record]
  change ((m.window.push x).map _).toOption.getD _ = _
  cases pushed : m.window.push x with
  | error e => rfl
  | ok result =>
    obtain ⟨w, n⟩ := result
    have entered := m.window.push_entered w x n consistent.sound
      (by rw [consistent.span]; exact positive) pushed
    change { m.withMinimum minimum with window := w, pulses := (m.withMinimum minimum).follow w n } = _
    rw [follow_withMinimum consistent longer entered]
    rfl

private theorem feed_all_withMinimum (positive : 0 < c.span) (longer : c.minimum ≤ minimum) (t : Table α)
    (xs : List (Sample α)) :
    xs.foldl feed (start (c.withMinimum minimum) t) =
      (xs.foldl feed (start c t)).withMinimum minimum := by
  induction xs using List.reverseRecOn with
  | nil => rfl
  | append_singleton xs x ih =>
    rw [List.foldl_concat, List.foldl_concat, ih]
    exact feed_withMinimum (feed_all_took positive t xs).1 positive longer x

private theorem snapshot_withMinimum (longer : m.settings.minimum ≤ minimum) :
    (m.withMinimum minimum).snapshot.pulses =
      m.snapshot.pulses.filter fun q => minimum ≤ q.pulse.length := by
  have tracked : (m.pulses.filter (Pulse.lasts minimum)).filter (fun p => decide (minimum ≤ p.length)) =
      (m.pulses.filter fun p => m.settings.minimum ≤ p.length).filter fun p => minimum ≤ p.length := by
    rw [List.filter_filter, List.filter_filter]
    refine List.filter_congr fun p _ => ?_
    by_cases long : minimum ≤ p.length
    · simp [long, longer.trans long, Pulse.lasts]
    · simp [long]
  rw [Snapshot.pulses, Snapshot.pulses, List.filter_filterMap]
  simp only [Pulse.locate?_filter]
  change List.filterMap _ ((m.pulses.filter (Pulse.lasts minimum)).filter fun p =>
    decide (minimum ≤ p.length)).reverse = _
  rw [tracked, ← List.filter_reverse, List.filterMap_filter]
  simp only [decide_eq_true_eq]
  rfl

end Meter

namespace Session

/-- Two new sessions whose settings differ in the minimum only have the same samples and rates after every
sample of a stream, and the one with the greater minimum shows those pulses of the other one that are long
enough for it, each at the same positions and with all that is told of it. -/
theorem minimum_only_filters {c : MeterSettings α} {points : List (Point α)} {m m' : Meter α}
    {minimum : Duration} (built : Meter.ofSettings c points = .ok m)
    (built' : Meter.ofSettings (c.withMinimum minimum) points = .ok m') (longer : c.minimum ≤ minimum)
    (s s' : Session α) (fresh : s.meter = m) (fresh' : s'.meter = m') (passive : s.Passive)
    (passive' : s'.Passive) (stream : List (Sample α)) :
    let here := (stream.foldl ingest s).meter.snapshot
    let there := (stream.foldl ingest s').meter.snapshot
    there.pulses = here.pulses.filter (fun q => minimum ≤ q.pulse.length) ∧
      there.samples = here.samples ∧ there.rates = here.rates := by
  intro here there
  obtain ⟨valid, t, table, rfl⟩ := Meter.ofSettings_eq_ok built
  obtain ⟨_, t', table', rfl⟩ := Meter.ofSettings_eq_ok built'
  cases Except.ok.inj (table.symm.trans table')
  have positive := MeterSettings.span_pos valid
  have consistent := (Meter.feed_all_took positive t stream).1
  have first : here = (stream.foldl Meter.feed (Meter.start c t)).snapshot := by
    rw [← fresh]
    exact congrArg Meter.snapshot (ingest_all_passive stream s passive)
  have second :
      there = ((stream.foldl Meter.feed (Meter.start c t)).withMinimum minimum).snapshot := by
    rw [← Meter.feed_all_withMinimum positive longer, ← fresh']
    exact congrArg Meter.snapshot (ingest_all_passive stream s' passive')
  rw [first, second]
  refine ⟨Meter.snapshot_withMinimum ?_, rfl, rfl⟩
  rwa [consistent.settings]

namespace Brief

open TwoHeatings (second)

def points : List (Point Float) := [⟨0, 0⟩, ⟨1, 10⟩]

def settings (minimum : Duration) : MeterSettings Float := TwoHeatings.settings.withMinimum minimum

def session (minimum : Duration) : Session Float :=
  { meter := Meter.start (settings minimum) ⟨points, by decide⟩ }

/-- A heating of one second, one of two seconds, and one that has just begun when the first sample leaves. -/
def stream : List (Sample Float) :=
  [second 0 0, second 1 0, second 2 1, second 3 1, second 4 1, second 5 2, second 6 3, second 7 3,
    second 8 3, second 10 3, .plain (Duration.ofMillis 10500) 4]

def told (s : Session Float) : List (Nat × Nat × Option Float) :=
  s.meter.snapshot.pulses.map fun q => (q.first, q.last, q.pulse.power)

end Brief

theorem minimum_only_filters_brief :
    let here := Brief.stream.foldl ingest (Brief.session (Duration.ofSeconds 1))
    let there := Brief.stream.foldl ingest (Brief.session (Duration.ofSeconds 2))
    Meter.ofSettings (Brief.settings (Duration.ofSeconds 1)) Brief.points =
        .ok (Brief.session (Duration.ofSeconds 1)).meter ∧
      Meter.ofSettings (Brief.settings (Duration.ofSeconds 2)) Brief.points =
        .ok (Brief.session (Duration.ofSeconds 2)).meter ∧
      here.meter.window.size = 10 ∧ here.meter.pulses.length = 3 ∧ there.meter.pulses.length = 2 ∧
      Brief.told here = [(0, 1, some 10), (3, 5, some 10)] ∧ Brief.told there = [(3, 5, some 10)] ∧
      there.meter.snapshot.pulses =
        here.meter.snapshot.pulses.filter (fun q => Duration.ofSeconds 2 ≤ q.pulse.length) ∧
      there.meter.snapshot.samples = here.meter.snapshot.samples ∧
      there.meter.snapshot.rates = here.meter.snapshot.rates := by
  have passive (minimum : Duration) : (Brief.session minimum).Passive :=
    fun _ member => absurd member List.not_mem_nil
  have built : Meter.ofSettings (Brief.settings (Duration.ofSeconds 1)) Brief.points =
      .ok (Brief.session (Duration.ofSeconds 1)).meter := rfl
  have built' : Meter.ofSettings (Brief.settings (Duration.ofSeconds 2)) Brief.points =
      .ok (Brief.session (Duration.ofSeconds 2)).meter := rfl
  exact ⟨built, built', by decide, by decide, by decide, by decide +kernel, by decide +kernel,
    minimum_only_filters built built' (by decide) _ _ rfl rfl (passive _) (passive _) Brief.stream⟩

end Session
end Calorimetry
