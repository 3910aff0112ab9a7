import Calorimetry.Proofs.Session.Replay
import Calorimetry.Proofs.Tracking.Positions

/-! What becomes of a tracked pulse. From one moment of a session to the next it goes on, or its start
leaves the window, or it ends too short, or all is cleared. Once frozen it cannot end any more, and
nothing but its power changes for as long as it is tracked. -/

namespace Calorimetry
variable {α : Type} [Scalar α]

omit [Scalar α] in
/-- `q` is what a sample makes of `p`. -/
structure Pulse.Continues (p q : Pulse α) : Prop where
  start : q.start = p.start
  frozen : p.phase = .frozen → q = p

omit [Scalar α] in
private theorem Pulse.continues_refl (p : Pulse α) : p.Continues p := ⟨rfl, fun _ => rfl⟩

omit [Scalar α] in
private theorem Pulse.continues_of_growing {p q : Pulse α} (growing : p.phase = .growing)
    (start : q.start = p.start) : p.Continues q := by
  refine ⟨start, ?_⟩
  intro frozen
  rw [growing] at frozen
  contradiction

namespace Window
variable {w w' : Window α} {s : Sample α} {n : Nat}

theorem push_samples (sound : w.Sound) (positive : 0 < w.span) (pushed : w.push s = .ok (w', n)) :
    w'.samples = (w.samples ++ [s]).filter (retains w.span s.time) := by
  have entered := w.push_entered w' s n sound positive pushed
  have longer : (w.extend s).samples.Pairwise fun a b => a.time < b.time := by
    rw [samples_extend]
    exact increasing_concat sound.increasing entered.later
  obtain ⟨count, left⟩ := push_ok pushed
  rw [left, samples_dropOldest, count, drop_expired _ _ longer, samples_extend]
  rfl

private theorem Sound.oldest_le (sound : w.Sound) {oldest : Sample α} (there : w.oldest? = some oldest) :
    ∀ a ∈ w.samples, oldest.time ≤ a.time := by
  intro a member
  obtain ⟨i, bound, rfl⟩ := List.mem_iff_getElem.mp member
  rw [oldest?_eq, List.head?_eq_getElem?] at there
  exact (sound.time_le_iff there (List.getElem?_eq_getElem bound)).mpr (Nat.zero_le i)

private theorem le_of_lt_oldest (sound : w.Sound) (positive : 0 < w.span) (pushed : w.push s = .ok (w', n))
    {oldest a : Sample α} (there : w'.oldest? = some oldest) (member : a ∈ w.samples)
    (gone : a.time < oldest.time) : a.time + w.span ≤ s.time := by
  have entered := w.push_entered w' s n sound positive pushed
  have absent : a ∉ w'.samples := by
    intro still
    exact Nat.not_le_of_lt gone (entered.sound.oldest_le there a still)
  rw [push_samples sound positive pushed, List.mem_filter, retains_iff] at absent
  exact Nat.le_of_not_lt fun recent => absent ⟨List.mem_append_left _ member, recent⟩

end Window

namespace Meter
variable {m next : Meter α} {c : MeterSettings α} {x : Sample α}

private theorem record_pushed (accepted : m.record x = .ok next) :
    ∃ n, m.window.push x = .ok (next.window, n) := by
  rw [record] at accepted
  cases pushed : m.window.push x with
  | error e =>
    rw [pushed] at accepted
    contradiction
  | ok result =>
    rw [pushed] at accepted
    cases accepted
    exact ⟨result.2, rfl⟩

private theorem start_left {n : Nat} (consistent : m.Consistent c) (positive : 0 < c.span)
    (accepted : m.record x = .ok next) (entered : m.window.Entered next.window x n) {p : Pulse α}
    (member : p ∈ m.pulses) (dropped : p ∉ m.keptPulses next.window n) : p.start + c.span ≤ x.time := by
  obtain ⟨i, _, spans⟩ := consistent.placed.spans p member
  obtain ⟨a, present, start⟩ := m.window.sample_of_indexOf? _ _ spans.start
  obtain ⟨oldest, there, _⟩ := entered.oldest_le_iff consistent.sound spans.start
  obtain ⟨_, pushed⟩ := record_pushed accepted
  have gone : a.time < oldest.time := by
    rw [keptPulses_eq_filter consistent entered there, List.mem_filter] at dropped
    rw [start]
    exact Nat.lt_of_not_le fun stays => dropped ⟨member, decide_eq_true stays⟩
  have old := Window.le_of_lt_oldest consistent.sound (by rw [consistent.span]; exact positive) pushed
    there (List.mem_of_getElem? present) gone
  rwa [start, consistent.span] at old

private theorem Follows.continues {w : Window α} {a b : Sample α} {kept after : Pulses α}
    (follows : m.Follows w a b kept after) : ∀ p ∈ kept, (∃ q ∈ after, p.Continues q) ∨
      (p.phase = .growing ∧ p.length < m.settings.minimum ∧
        m.settings.reach < (w.countAfter? p.stop).getD 0) := by
  intro p member
  cases follows with
  | rest _ frozen => exact .inl ⟨p, List.mem_append_right _ member, p.continues_refl⟩
  | goOn p' older growing frozen near =>
    left
    rcases List.mem_cons.mp member with rfl | behind
    · refine ⟨m.grown w a b p, List.mem_cons_self, Pulse.continues_of_growing growing ?_⟩
      rw [grown]
      split
      · rfl
      · rfl
    · exact ⟨p, List.mem_cons_of_mem _ behind, p.continues_refl⟩
  | finish p' older growing frozen far =>
    rcases List.mem_cons.mp member with rfl | behind
    · rcases Nat.lt_or_ge p.length m.settings.minimum with short | long
      · exact .inr ⟨growing, short, far⟩
      · left
        refine ⟨m.fitPulse w { p with phase := .frozen }, ?_, Pulse.continues_of_growing growing rfl⟩
        rw [retired, if_neg (Nat.not_lt_of_le long)]
        exact List.mem_append_right _ List.mem_cons_self
    · left
      exact ⟨p, List.mem_append_right _ (List.mem_append_right _ behind), p.continues_refl⟩

end Meter

/-- What can become of the pulse `p` when `e` happens, which leads to the measurement `next`. -/
inductive Pulse.Fate (c : MeterSettings α) (p : Pulse α) (e : Session.Event α) (next : Meter α) : Prop
  | continues (q : Pulse α) (tracked : q ∈ next.pulses) (same : p.Continues q)
  | annotated (points : List (Point α)) (installed : e = .did (.setTable points))
      (tracked : ∃ q ∈ next.pulses, q = { p with annotation := q.annotation })
  | leaves (x : Sample α) (taken : e = .did (.ingest x)) (latest : next.latestTime? = some x.time)
      (gone : p.start + c.span ≤ x.time)
  | dropped (x : Sample α) (taken : e = .did (.ingest x)) (growing : p.phase = .growing)
      (short : p.length < c.minimum) (after : Nat) (counted : next.window.countAfter? p.stop = some after)
      (closing : c.reach < after)
  | cleared (done : e = .did .clear)

namespace Meter
variable {m : Meter α} {c : MeterSettings α}

theorem record_latest {next : Meter α} {x : Sample α} {n : Nat}
    (entered : m.window.Entered next.window x n) : next.latestTime? = some x.time := by
  rw [latestTime?, Window.newest?_eq, List.getLast?_eq_getElem?, ← Window.size_eq, entered.sample_new]
  rfl

theorem feed_fate (consistent : m.Consistent c) (positive : 0 < c.span) (x : Sample α) {p : Pulse α}
    (member : p ∈ m.pulses) : p.Fate c (.did (.ingest x)) (m.feed x) := by
  rw [feed]
  cases accepted : m.record x with
  | error e => exact .continues p member p.continues_refl
  | ok next =>
    change p.Fate c (.did (.ingest x)) next
    obtain ⟨n, entered, _, _, step⟩ := record_cases consistent positive accepted
    by_cases kept : p ∈ m.keptPulses next.window n
    · rcases step with ⟨_, none, _⟩ | ⟨a, _, follows⟩
      · rw [none] at kept
        exact absurd kept List.not_mem_nil
      · rcases follows.continues p kept with ⟨q, tracked, same⟩ | ⟨growing, short, closing⟩
        · exact .continues q tracked same
        · rw [consistent.settings] at short closing
          cases counted : next.window.countAfter? p.stop with
          | none =>
            rw [counted] at closing
            exact absurd closing (Nat.not_lt_zero _)
          | some after =>
            rw [counted] at closing
            exact .dropped x rfl growing short after counted closing
    · exact .leaves x rfl (record_latest entered) (start_left consistent positive accepted entered member kept)

end Meter

namespace Session
variable {c : MeterSettings α} {m n : Moment α} {e : Event α} {trace : List (Event α)}

theorem Moment.Passes.consistent (passes : m.Passes trace n) (positive : 0 < c.span)
    (consistent : m.session.meter.Consistent c) : n.session.meter.Consistent c :=
  passes.leads.keeps consistent fun _ _ change => change.consistent positive

private theorem next_consistent (first : m.next? = some (e, n)) (positive : 0 < c.span)
    (consistent : m.session.meter.Consistent c) : n.session.meter.Consistent c :=
  (Moment.Passes.step first (.refl n)).consistent positive consistent

private theorem next_fate (first : m.next? = some (e, n)) (positive : 0 < c.span)
    (consistent : m.session.meter.Consistent c) {p : Pulse α} (member : p ∈ m.session.meter.pulses) :
    p.Fate c e n.session.meter := by
  have after := next_meter first
  cases e with
  | served t shown =>
    rw [show n.session.meter = m.session.meter from after]
    exact .continues p member p.continues_refl
  | closed =>
    rw [show n.session.meter = m.session.meter from after]
    exact .continues p member p.continues_refl
  | did a =>
    cases a with
    | ingest x =>
      rw [show n.session.meter = m.session.meter.feed x from after]
      exact Meter.feed_fate consistent positive x member
    | clear => exact .cleared rfl
    | setTable points =>
      rw [show n.session.meter = m.session.meter.undergo (.setTable points) from after, Meter.undergo]
      cases Table.ofPoints points with
      | error e => exact .continues p member p.continues_refl
      | ok t => exact .annotated points rfl ⟨p.annotate t, List.mem_map_of_mem member, rfl⟩
    | _ =>
      rw [show n.session.meter = m.session.meter from after]
      exact .continues p member p.continues_refl

/-- From `m` to `n` the pulse `p` has stayed as it was, its power apart, or its start has left the window, or
all has been cleared. -/
inductive Lasts (c : MeterSettings α) (p : Pulse α) (m : Moment α) (trace : List (Event α)) (n : Moment α) :
    Prop
  | stays (q : Pulse α) (tracked : q ∈ n.session.meter.pulses)
      (same : q = { p with annotation := q.annotation })
  | leaves (before after : List (Event α)) (mid : Moment α) (latest : Duration)
      (reached : m.Passes before mid) (rest : mid.Passes after n) (split : trace = before ++ after)
      (newest : mid.session.meter.latestTime? = some latest) (gone : p.start + c.span ≤ latest)
  | cleared (done : .did .clear ∈ trace)

private theorem Lasts.step {next : Moment α} {p q : Pulse α} (first : m.next? = some (e, next))
    (same : q = { p with annotation := q.annotation }) (lasts : Lasts c q next trace n) :
    Lasts c p m (e :: trace) n := by
  cases lasts with
  | stays r tracked equal => exact .stays r tracked (by rw [equal, same])
  | leaves before after mid latest reached rest split newest gone =>
    refine .leaves (e :: before) after mid latest (.step first reached) rest ?_ newest ?_
    · rw [split, List.cons_append]
    · rwa [same] at gone
  | cleared done => exact .cleared (List.mem_cons_of_mem _ done)

private theorem Moment.Passes.lasts (passes : m.Passes trace n) (positive : 0 < c.span)
    (consistent : m.session.meter.Consistent c) {p : Pulse α} (member : p ∈ m.session.meter.pulses)
    (frozen : p.phase = .frozen) : Lasts c p m trace n := by
  -- What is tracked in its place stays frozen, so the hypothesis is about that one, after each event.
  induction passes generalizing p with
  | refl => exact .stays p member rfl
  | @step m next n e trace first later ih =>
    have consistent' := next_consistent first positive consistent
    cases next_fate first positive consistent member with
    | continues q tracked same =>
      rw [same.frozen frozen] at tracked
      exact .step first rfl (ih consistent' tracked frozen)
    | annotated points installed tracked =>
      obtain ⟨q, tracked, same⟩ := tracked
      exact .step first same (ih consistent' tracked (by rw [same]; exact frozen))
    | leaves x taken latest gone =>
      exact .leaves [e] trace next x.time (.step first (.refl next)) later rfl latest gone
    | dropped x taken growing =>
      rw [growing] at frozen
      contradiction
    | cleared done =>
      rw [done]
      exact .cleared List.mem_cons_self

/-- Frozen pulses are neither changed nor lost. At whatever moment of a session, also while rounds are in
progress, a pulse that is frozen is from then on tracked as it is, its power apart, until its start leaves
the window or all is cleared. And a pulse that is no longer tracked has lost its start, or has ended too
short, or has been cleared. -/
theorem pulses_fates {points : List (Point α)} {meter : Meter α}
    (built : Meter.ofSettings c points = .ok meter) (ops : List (Operation α)) (earlier : List (Event α))
    (now : Moment α) (reached : (Moment.before { meter := meter } ops).Passes earlier now) :
    (∀ trace later, now.Passes trace later → ∀ p ∈ now.session.meter.pulses, p.phase = .frozen →
      Lasts c p now trace later) ∧
    ∀ e next, now.next? = some (e, next) → ∀ p ∈ now.session.meter.pulses,
      p.Fate c e next.session.meter := by
  obtain ⟨valid, t, _, rfl⟩ := Meter.ofSettings_eq_ok built
  have positive := MeterSettings.span_pos valid
  have consistent := reached.consistent positive (Meter.start_consistent c t)
  constructor
  · intro trace later passes p member frozen
    exact passes.lasts positive consistent member frozen
  · intro e next first p member
    exact next_fate first positive consistent member

namespace Fading

/-- After the two heatings a sample comes in that is a span later than the start of the first one. -/
def ops : List (Operation Float) := TwoHeatings.operations ++ [.ingest (TwoHeatings.second 13 2)]

def meter : Meter Float := Meter.start TwoHeatings.settings Table.empty

def start : Moment Float := .before { meter } ops

def now : Moment Float := (start.run 13).2

def next : Moment Float := (start.run 14).2

end Fading

theorem pulses_fates_fading :
    Meter.ofSettings TwoHeatings.settings [] = .ok Fading.meter ∧
      Fading.start.Passes (Fading.start.run 13).1 Fading.now ∧
      Fading.now.session.meter.pulses.map Pulse.phase = [.growing, .frozen] ∧
      Fading.next.session.meter.pulses.map Pulse.phase = [.frozen] ∧
      ∃ p ∈ Fading.now.session.meter.pulses, p.phase = .frozen ∧
        p.Fate TwoHeatings.settings (.did (.ingest (TwoHeatings.second 13 2))) Fading.next.session.meter := by
  have reached := Moment.run_passes 13 Fading.start
  obtain ⟨p, member, frozen⟩ : ∃ p ∈ Fading.now.session.meter.pulses, p.phase = .frozen := by decide
  refine ⟨TwoHeatings.built, reached, by decide, by decide, p, member, frozen, ?_⟩
  exact (pulses_fates TwoHeatings.built Fading.ops _ _ reached).2 _ _ rfl p member

end Session
end Calorimetry
