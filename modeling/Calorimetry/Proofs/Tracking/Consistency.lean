import Calorimetry.Proofs.Tracking.Placement
import Mathlib.Data.List.Chain

/-! What holds of a measurement in every state that a session can get it into: its window is sound,
and its pulses are settled and placed in the window. -/

namespace Calorimetry
variable {α : Type} [Scalar α]

namespace Meter
variable {m : Meter α} {w : Window α}

/-- What holds of a measurement with the settings `c` in every state: the window is sound, and the
pulses are settled and placed in it. -/
structure Consistent (c : MeterSettings α) (m : Meter α) : Prop where
  settings : m.settings = c
  span : m.window.span = c.span
  sound : m.window.Sound
  settled : m.pulses.Settled
  placed : m.pulses.Placed c m.window 0

variable {c : MeterSettings α}

theorem start_consistent (c : MeterSettings α) (t : Table α) : (start c t).Consistent c where
  settings := rfl
  span := rfl
  sound := ⟨.nil, rfl⟩
  settled := Pulses.settled_of_frozen (fun _ member => absurd member List.not_mem_nil)
  placed := Pulses.placed_nil 0

/-- The new window and what came in with it, for a sample that was accepted. -/
theorem record_entered {next : Meter α} {x : Sample α} (consistent : m.Consistent c)
    (positive : 0 < c.span) (accepted : m.record x = .ok next) :
    ∃ n, m.window.Entered next.window x n ∧
      next = { m with window := next.window, pulses := m.follow next.window n } := by
  rw [record] at accepted
  cases pushed : m.window.push x with
  | error e =>
    rw [pushed] at accepted
    contradiction
  | ok result =>
    obtain ⟨w, n⟩ := result
    rw [pushed] at accepted
    cases accepted
    refine ⟨n, ?_, rfl⟩
    exact m.window.push_entered w x n consistent.sound (by rw [consistent.span]; exact positive) pushed

theorem kept_placed {x : Sample α} {n : Nat} (consistent : m.Consistent c)
    (entered : m.window.Entered w x n) : (m.keptPulses w n).Placed c w 1 :=
  consistent.placed.entered entered consistent.sound (m.keptPulses_sublist w n)
    (keptPulses_stay entered consistent.sound)

/-- A pulse has two samples. -/
theorem kept_eq_nil {x : Sample α} {n : Nat} (consistent : m.Consistent c)
    (entered : m.window.Entered w x n) (few : w.size ≤ 1) : m.keptPulses w n = [] := by
  apply List.eq_nil_iff_forall_not_mem.mpr
  intro p member
  obtain ⟨i, j, spans⟩ := (kept_placed consistent entered).spans p member
  have ordered := spans.ordered
  have bound := w.indexOf?_lt _ _ spans.stop
  omega

/-- What an accepted sample does: after the first sample of a window there is no pulse, and every
other one does what `Follows` says to the pulses that are kept. -/
theorem record_cases {next : Meter α} {x : Sample α} (consistent : m.Consistent c)
    (positive : 0 < c.span) (accepted : m.record x = .ok next) :
    ∃ n, m.window.Entered next.window x n ∧ next.settings = m.settings ∧ next.table = m.table ∧
      ((next.window.size = 1 ∧ m.keptPulses next.window n = [] ∧ next.pulses = []) ∨
        ∃ a, Newest next.window a x ∧
          m.Follows next.window a x (m.keptPulses next.window n) next.pulses) := by
  obtain ⟨n, entered, equal⟩ := record_entered consistent positive accepted
  have pulses : next.pulses = m.follow next.window n := by rw [equal]
  refine ⟨n, entered, by rw [equal], by rw [equal], ?_⟩
  rcases entered.sound.latest_cases with ⟨few, latest⟩ | ⟨two, a, b, last, latest, first, second⟩
  · left
    have empty := kept_eq_nil consistent entered few
    have size := entered.size
    have bound := entered.le_size
    refine ⟨by omega, empty, ?_⟩
    rw [pulses, m.follow_of_no_rate next.window n latest (by simp [empty]), empty]
  · right
    cases Option.some.inj (entered.sample_new.symm.trans second)
    rw [pulses]
    exact ⟨a, ⟨two, first, second⟩, m.follow_cases next.window n a x consistent.settled last latest⟩

theorem record_consistent {next : Meter α} {x : Sample α} (consistent : m.Consistent c)
    (positive : 0 < c.span) (accepted : m.record x = .ok next) : next.Consistent c := by
  obtain ⟨n, entered, settings, _, step⟩ := record_cases consistent positive accepted
  have placed := kept_placed consistent entered
  refine ⟨settings.trans consistent.settings, entered.span.trans consistent.span, entered.sound,
    ?_, ?_⟩
  · rcases step with ⟨_, _, none⟩ | ⟨a, newest, follows⟩
    · rw [none]
      exact Pulses.settled_of_frozen (fun _ member => absurd member List.not_mem_nil)
    · exact follows.settled
  · rcases step with ⟨_, _, none⟩ | ⟨a, newest, follows⟩
    · rw [none]
      exact Pulses.placed_nil 0
    · rw [← consistent.settings] at placed ⊢
      exact follows.placed entered.sound newest placed

private theorem withTable_consistent (consistent : m.Consistent c) (t : Table α) :
    (m.withTable t).Consistent c := by
  refine ⟨consistent.settings, consistent.span, consistent.sound, ⟨?_, ?_⟩,
    consistent.placed.annotated t⟩
  · intro q member
    obtain ⟨p, present, rfl⟩ := List.mem_map.mp member
    exact consistent.settled.none_ending p present
  · intro q member
    change q ∈ (m.pulses.map (·.annotate t)).tail at member
    rw [← List.map_tail] at member
    obtain ⟨p, present, rfl⟩ := List.mem_map.mp member
    exact consistent.settled.older_frozen p present

/-- The settings and the table are all that a clearing leaves. -/
theorem Consistent.clear_eq (consistent : m.Consistent c) : m.clear = start c m.table := by
  rw [clear, start, Window.clear, consistent.span, consistent.settings]

theorem Change.consistent {next : Meter α} (change : Change m next) (positive : 0 < c.span)
    (consistent : m.Consistent c) : next.Consistent c := by
  cases change with
  | record x _ accepted => exact record_consistent consistent positive accepted
  | clear =>
    rw [consistent.clear_eq]
    exact start_consistent c m.table
  | withTable t => exact withTable_consistent consistent t

end Meter

theorem MeterSettings.span_pos {c : MeterSettings α} (valid : c.fault? = none) : 0 < c.span := by
  apply Nat.pos_of_ne_zero
  intro zero
  rw [fault?, if_pos zero] at valid
  contradiction

theorem MeterSettings.isPositive_threshold {c : MeterSettings α} (valid : c.fault? = none) :
    Scalar.isPositive c.threshold = true := by
  rw [fault?] at valid
  split at valid
  · contradiction
  split at valid
  · contradiction
  next positive => simpa using positive

theorem MeterSettings.isPositive_outlierFactor {c : MeterSettings α} (valid : c.fault? = none) :
    Scalar.isPositive c.outlierFactor = true := by
  rw [fault?] at valid
  split at valid
  · contradiction
  split at valid
  · contradiction
  split at valid
  · contradiction
  next positive => simpa using positive

/-- A measurement is built from settings without a fault, and begins with nothing. -/
theorem Meter.ofSettings_eq_ok {c : MeterSettings α} {points : List (Point α)} {m : Meter α}
    (built : Meter.ofSettings c points = .ok m) :
    c.fault? = none ∧ ∃ t, Table.ofPoints points = .ok t ∧ m = Meter.start c t := by
  rw [ofSettings] at built
  split at built
  · contradiction
  next valid =>
    refine ⟨valid, ?_⟩
    cases table : Table.ofPoints points with
    | error e =>
      rw [table] at built
      contradiction
    | ok t =>
      rw [table] at built
      exact ⟨t, rfl, (Except.ok.inj built).symm⟩

/-- Pulses lie apart from each other in the window, so their starts decrease from the newest one on. -/
theorem Meter.Consistent.starts_decrease {c : MeterSettings α} {m : Meter α} (consistent : m.Consistent c) :
    m.pulses.Pairwise fun newer older => older.start < newer.start := by
  refine consistent.placed.apart.imp_of_mem ?_
  intro newer older member member' apart
  obtain ⟨i, _, spans⟩ := consistent.placed.spans newer member
  obtain ⟨k, j, spans'⟩ := consistent.placed.spans older member'
  have distance := apart i j spans.start spans'.stop
  have ordered := spans'.ordered
  obtain ⟨a, present, start⟩ := m.window.sample_of_indexOf? _ _ spans.start
  obtain ⟨b, present', start'⟩ := m.window.sample_of_indexOf? _ _ spans'.start
  rw [← start, ← start']
  exact consistent.sound.time_lt present' present (by omega)

/-- Whatever is done to a session, its measurement stays consistent. -/
theorem Session.operate_consistent {c : MeterSettings α} {points : List (Point α)} {m : Meter α}
    (built : Meter.ofSettings c points = .ok m) (ops : List (Operation α)) :
    (operate { meter := m } ops).meter.Consistent c := by
  obtain ⟨valid, t, _, rfl⟩ := Meter.ofSettings_eq_ok built
  apply operate_keeps _ (Meter.start_consistent c t)
  intro m next change consistent
  exact change.consistent (MeterSettings.span_pos valid) consistent

/-- The rules that tracked pulses obey, newest first. -/
structure Pulses.Regular (c : MeterSettings α) (w : Window α) (ps : Pulses α) : Prop where
  none_ending : ∀ p ∈ ps, p.phase ≠ .ending
  older_frozen : ∀ p ∈ ps.tail, p.phase = .frozen
  spans : ∀ p ∈ ps, ∃ i j, p.Spans c.threshold w i j
  growing_near : ∀ p ∈ ps, p.phase = .growing →
    ∃ j, w.indexOf? p.stop = some j ∧ w.size - 1 - j ≤ c.reach
  frozen_long : ∀ p ∈ ps, p.phase = .frozen → c.minimum ≤ p.length
  apart : ps.IsChain fun newer older => ∃ i j, w.indexOf? newer.start = some i ∧
    w.indexOf? older.stop = some j ∧ j + c.reach ≤ i

private theorem Meter.Consistent.regular {c : MeterSettings α} {m : Meter α} (consistent : m.Consistent c) :
    m.pulses.Regular c m.window := by
  have placed := consistent.placed
  refine ⟨consistent.settled.none_ending, consistent.settled.older_frozen, placed.spans, ?_,
    placed.frozen_long, ?_⟩
  · intro p member growing
    obtain ⟨i, j, spans⟩ := placed.spans p member
    have near := placed.growing_near p member growing j spans.stop
    exact ⟨j, spans.stop, by omega⟩
  · have apart := placed.apart
    apply List.Pairwise.isChain
    apply apart.imp_of_mem
    intro newer older first second distance
    obtain ⟨i, _, spansNewer⟩ := placed.spans newer first
    obtain ⟨_, j, spansOlder⟩ := placed.spans older second
    exact ⟨i, j, spansNewer.start, spansOlder.stop, distance i j spansNewer.start spansOlder.stop⟩

/-- The pulses of a measurement obey the rules after any operations on its session. -/
theorem pulses_regular {c : MeterSettings α} {points : List (Point α)} {m : Meter α}
    (built : Meter.ofSettings c points = .ok m) (ops : List (Session.Operation α)) :
    let reached := (Session.operate { meter := m } ops).meter
    reached.pulses.Regular c reached.window :=
  (Session.operate_consistent built ops).regular

namespace TwoHeatings

def settings : MeterSettings Float := { threshold := 0.5, gap := 1 }

def second (n : Nat) (y : Float) : Sample Float := .plain (Duration.ofSeconds n) y

/-- Two heatings, with a refused sample and a refused table between them. Then the first two samples
leave the window. -/
def operations : List (Session.Operation Float) :=
  [.ingest (second 0 0), .ingest (second 1 0), .ingest (second 2 0), .ingest (second 3 1),
    .ingest (second 3 7), .setTable [⟨1, 2⟩, ⟨0, 1⟩], .ingest (second 4 1), .ingest (second 5 1),
    .shutdown, .ingest (second 6 2), .process [second 11 2]]

def reached : Meter Float :=
  (Session.operate { meter := Meter.start settings Table.empty } operations).meter

theorem built : Meter.ofSettings settings [] = .ok (Meter.start settings Table.empty) := rfl

end TwoHeatings

theorem pulses_regular_two_heatings :
    Meter.ofSettings TwoHeatings.settings [] = .ok (Meter.start TwoHeatings.settings Table.empty) ∧
      TwoHeatings.reached.window.size = 6 ∧
      TwoHeatings.reached.pulses.map Pulse.phase = [.growing, .frozen] ∧
      TwoHeatings.reached.pulses.Regular TwoHeatings.settings TwoHeatings.reached.window :=
  ⟨TwoHeatings.built, by decide, by decide,
    pulses_regular TwoHeatings.built TwoHeatings.operations⟩

end Calorimetry
