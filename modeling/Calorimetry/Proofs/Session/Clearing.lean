import Calorimetry.Proofs.Table
import Calorimetry.Proofs.Tracking.Fates

/-! What a clearing leaves. A measurement that has been cleared is a new one with the same settings and the
table installed last, so whatever is called from then on is answered as by a new session, and only the
number of refused samples goes on from where it was. -/

namespace Calorimetry
variable {α : Type} [Scalar α]

namespace Meter

def refusals (m : Meter α) : Action α → Nat
  | .ingest x => if (m.record x).isOk then 0 else 1
  | _ => 0

structure Tally (α : Type) [Scalar α] where
  meter : Meter α
  refused : Nat

namespace Tally

def undergo (t : Tally α) (a : Action α) : Tally α :=
  ⟨t.meter.undergo a, t.refused + t.meter.refusals a⟩

private theorem undergo_all_add (calls : List (Action α)) (m : Meter α) (j k : Nat) :
    calls.foldl undergo ⟨m, k + j⟩ =
      ⟨(calls.foldl undergo ⟨m, j⟩).meter, k + (calls.foldl undergo ⟨m, j⟩).refused⟩ := by
  induction calls generalizing m j with
  | nil => rfl
  | cons a later ih =>
    rw [List.foldl_cons, List.foldl_cons, undergo, undergo]
    dsimp only
    rw [Nat.add_assoc, ih]

end Tally
end Meter

namespace Action

omit [Scalar α] in
/-- Whether the action is one on the session itself, and not on those who observe it. A stream is made of
such actions. -/
def isCall : Action α → Bool
  | .ingest _ | .clear | .setTable _ | .reset | .shutdown => true
  | _ => false

end Action

namespace Session

omit [Scalar α] in
def Event.did? : Event α → Option (Action α)
  | .did a => some a
  | .served _ _ | .closed => none

omit [Scalar α] in
/-- The call on the session, if the event is one. -/
def Event.call? (e : Event α) : Option (Action α) := e.did?.filter Action.isCall

def tally (s : Session α) : Meter.Tally α := ⟨s.meter, s.anomalies⟩

private theorem take_tally (s : Session α) (x : Sample α) :
    (s.take x).1.tally = s.tally.undergo (.ingest x) := by
  rw [take, tally, tally, Meter.Tally.undergo, Meter.undergo, Meter.refusals, Meter.feed]
  cases s.meter.record x with
  | error e => rfl
  | ok next => rfl

private theorem setTable_tally (s : Session α) (points : List (Point α)) :
    ((s.setTable points).toOption.getD s).tally = s.tally.undergo (.setTable points) := by
  rw [setTable, tally, tally, Meter.Tally.undergo, Meter.undergo]
  cases Table.ofPoints points with
  | error e => rfl
  | ok t => rfl

variable {m n : Moment α} {e : Event α} {trace : List (Event α)}

private theorem next_tally (first : m.next? = some (e, n)) :
    n.session.tally = e.call?.elim m.session.tally m.session.tally.undergo := by
  rcases Moment.next?_cases first with ⟨a, _, _, rfl, same, _⟩ | ⟨shown, t, _, _, _, _, rfl, same, _⟩ |
    ⟨_, gone, _, _, rfl, same, _⟩
  · rw [same]
    cases a with
    | ingest x => exact m.session.take_tally x
    | setTable points => exact m.session.setTable_tally points
    | _ => rfl
  · rw [same, attend]
    split
    · rfl
    · split
      · rfl
      · rfl
  · rw [same]
    rfl

private theorem Moment.Passes.tally (passes : m.Passes trace n) :
    n.session.tally = (trace.filterMap Event.call?).foldl Meter.Tally.undergo m.session.tally := by
  induction passes with
  | refl => rfl
  | @step m next n e trace first _ ih =>
    rw [ih, next_tally first, List.filterMap_cons]
    cases e.call? with
    | none => rfl
    | some a => rfl

private theorem perform_tally (s : Session α) (a : Action α) (passive : s.Passive) (call : a.isCall = true) :
    (s.perform a).tally = s.tally.undergo a ∧ (s.perform a).Passive := by
  cases a with
  | ingest x =>
    have rests := ingest_rests s x passive
    refine ⟨?_, rests.passive⟩
    rw [← take_tally, tally, tally, ← rests.meter, ← rests.anomalies]
    rfl
  | setTable points => exact ⟨s.setTable_tally points, setTable_passive s points passive⟩
  | clear => exact ⟨rfl, passive⟩
  | reset => exact ⟨rfl, passive⟩
  | shutdown => exact ⟨rfl, passive⟩
  | _ => cases call

private theorem operate_tally (calls : List (Action α)) (s : Session α) (passive : s.Passive)
    (all : ∀ a ∈ calls, a.isCall = true) :
    (s.operate calls).tally = calls.foldl Meter.Tally.undergo s.tally := by
  induction calls generalizing s with
  | nil => rfl
  | cons a later ih =>
    obtain ⟨first, others⟩ := List.forall_mem_cons.mp all
    obtain ⟨done, still⟩ := perform_tally s a passive first
    rw [operate_cons, ih _ still others, done, List.foldl_cons]

/-- Whatever can be asked about the measurement, `s` answers as `other` does; but `k` more samples have been
refused. -/
structure Resembles (k : Nat) (s other : Session α) : Prop where
  samples : s.meter.snapshot.samples = other.meter.snapshot.samples
  rates : s.meter.snapshot.rates = other.meter.snapshot.rates
  pulses : s.meter.snapshot.pulses = other.meter.snapshot.pulses
  latest : s.meter.latestTime? = other.meter.latestTime?
  slopes : ∀ since, s.meter.slopeSince? since = other.meter.slopeSince? since
  table : s.meter.table = other.meter.table
  refused : s.anomalies = k + other.anomalies

private theorem resembles_fresh {s : Session α} {m : Meter α} {k : Nat} {calls : List (Action α)}
    (all : ∀ a ∈ calls, a.isCall = true)
    (done : s.tally = calls.foldl Meter.Tally.undergo ⟨m, k⟩) :
    s.Resembles k (operate { meter := m } calls) := by
  have fresh : (operate { meter := m } calls).tally = calls.foldl Meter.Tally.undergo ⟨m, 0⟩ :=
    operate_tally calls { meter := m } (fun _ member => absurd member List.not_mem_nil) all
  rw [← Nat.add_zero k, Meter.Tally.undergo_all_add, ← fresh] at done
  have meter : s.meter = (operate { meter := m } calls).meter := congrArg Meter.Tally.meter done
  have refused : s.anomalies = k + (operate { meter := m } calls).anomalies :=
    congrArg Meter.Tally.refused done
  exact ⟨by rw [meter], by rw [meter], by rw [meter], by rw [meter], by simp [meter], by rw [meter],
    refused⟩

omit [Scalar α] in
private theorem call?_isCall {trace : List (Event α)} : ∀ a ∈ trace.filterMap Event.call?, a.isCall = true := by
  intro a member
  obtain ⟨e, _, given⟩ := List.mem_filterMap.mp member
  exact (Option.filter_eq_some_iff.mp given).2

/-- A clearing leaves no residue. At whatever moment of a session all is cleared, be it by a callback while
rounds are in progress, what follows is answered as by a new session with the settings and the table of that
moment, to which the same calls are made; only the samples refused up to then are counted as well. If no
callback does anything to the measurement, the calls are those made from outside. -/
theorem clear_leaves_no_residue {c : MeterSettings α} {points : List (Point α)} {meter : Meter α}
    (built : Meter.ofSettings c points = .ok meter) (ops : List (Operation α)) {earlier : List (Event α)}
    {now : Moment α} (passes : (Moment.before { meter := meter } ops).Passes earlier now) :
    ∃ fresh, Meter.ofSettings c now.session.meter.table.points = .ok fresh ∧
      (∀ cleared, now.next? = some (.did .clear, cleared) → ∀ later next, cleared.Passes later next →
        next.session.Resembles now.session.anomalies
          (operate { meter := fresh } (later.filterMap Event.call?))) ∧
      (now.session.Passive → ∀ calls : List (Operation α), (∀ a ∈ calls, a.isCall = true) →
        (now.session.operate (.clear :: calls)).Resembles now.session.anomalies
          (operate { meter := fresh } calls)) := by
  obtain ⟨valid, t, _, rfl⟩ := Meter.ofSettings_eq_ok built
  have consistent := passes.consistent (MeterSettings.span_pos valid) (Meter.start_consistent c t)
  have emptied : now.session.tally.undergo .clear =
      ⟨Meter.start c now.session.meter.table, now.session.anomalies⟩ := by
    rw [← consistent.clear_eq]
    rfl
  refine ⟨Meter.start c now.session.meter.table, ?_, ?_, ?_⟩
  · rw [Meter.ofSettings, valid, Table.ofPoints_points]
    rfl
  · intro cleared first later next follows
    apply resembles_fresh call?_isCall
    rw [follows.tally, next_tally first, ← emptied]
    rfl
  · intro passive calls all
    apply resembles_fresh all
    rw [operate_tally _ _ passive (List.forall_mem_cons.mpr ⟨rfl, all⟩), List.foldl_cons, emptied]

namespace Residue

open TwoHeatings (second)

/-- Two heatings, with a refused sample and a new table between them. In the round for the last sample the
callback clears all and then feeds a sample that is older than the cleared ones. -/
def ops : List (Operation Float) :=
  [.subscribeWith [[], [], [], [], [], [], [.clear, .ingest (second 1 4)]], .ingest (second 0 0),
    .ingest (second 1 0), .ingest (second 2 0), .ingest (second 3 1), .ingest (second 3 7),
    .setTable [⟨0, 0⟩, ⟨1, 2⟩], .ingest (second 4 1), .ingest (second 5 1), .ingest (second 6 2)]

def start : Moment Float := .before { meter := Meter.start TwoHeatings.settings Table.empty } ops

/-- The callback is about to clear. -/
def now : Moment Float := (start.run 23).2

def cleared : Moment Float := (start.run 24).2

def last : Moment Float := (cleared.run 4).2

def calls : List (Operation Float) :=
  [.ingest (second 2 0), .shutdown, .ingest (second 1 9), .ingest (second 3 1), .reset, .ingest (second 5 2)]

end Residue

-- The later calls start before the last of the cleared samples, and one of them is refused.
theorem clear_leaves_no_residue_in_round :
    Meter.ofSettings TwoHeatings.settings [] = .ok (Meter.start TwoHeatings.settings Table.empty) ∧
      Residue.start.Passes (Residue.start.run 23).1 Residue.now ∧
      Residue.now.session.anomalies = 1 ∧
      Residue.now.session.meter.pulses.map Pulse.phase = [.growing, .frozen] ∧
      Residue.now.session.Passive ∧ (∀ a ∈ Residue.calls, a.isCall = true) ∧
      ∃ fresh, Meter.ofSettings TwoHeatings.settings [⟨0, 0⟩, ⟨1, 2⟩] = .ok fresh ∧
        Residue.now.next? = some (.did .clear, Residue.cleared) ∧
        Residue.cleared.Passes (Residue.cleared.run 4).1 Residue.last ∧
        Residue.last.session.Resembles 1 (operate { meter := fresh } [.ingest (TwoHeatings.second 1 4)]) ∧
        (Residue.now.session.operate (.clear :: Residue.calls)).Resembles 1
          (operate { meter := fresh } Residue.calls) ∧
        (operate { meter := fresh } Residue.calls).anomalies = 1 := by
  have reached := Moment.run_passes 23 Residue.start
  have follows := Moment.run_passes 4 Residue.cleared
  have passive : Residue.now.session.Passive := by
    have plans : Residue.now.session.plans = [(0, [])] := rfl
    intro entry member
    rw [plans, List.mem_singleton] at member
    simp [member]
  have all : ∀ a ∈ Residue.calls, a.isCall = true := by simp [Residue.calls, Action.isCall]
  obtain ⟨fresh, made, follow, resume⟩ := clear_leaves_no_residue TwoHeatings.built Residue.ops reached
  refine ⟨TwoHeatings.built, reached, by decide, by decide, passive, all, fresh, made, rfl, follows,
    follow Residue.cleared rfl _ _ follows, resume passive _ all, ?_⟩
  cases Except.ok.inj made
  decide

end Session
end Calorimetry
