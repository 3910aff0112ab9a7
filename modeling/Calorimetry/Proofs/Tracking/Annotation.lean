import Calorimetry.Proofs.Session.Omission
import Calorimetry.Proofs.Tracking.Fit

/-! Powers follow the table. A pulse gets its power with each fit and anew with each table, and a frozen
one is not fitted again, so the power that it carries is always what the table at hand makes of its slope.
A table that is refused leaves no trace. -/

namespace Calorimetry
variable {α : Type} [Scalar α]

def Pulse.PricedBy (t : Table α) (p : Pulse α) : Prop := p.power = t.powerFor? p.slope

namespace Meter
variable {m : Meter α} {c : MeterSettings α}

private theorem fitPulse_priced (m : Meter α) (w : Window α) (p : Pulse α) :
    (m.fitPulse w p).PricedBy m.table := rfl

/-- A consistent measurement whose pulses all have the power that its table has for them. -/
structure Priced (c : MeterSettings α) (m : Meter α) : Prop extends m.Consistent c where
  priced : ∀ p ∈ m.pulses, p.PricedBy m.table

theorem start_priced (c : MeterSettings α) (t : Table α) : (start c t).Priced c :=
  ⟨start_consistent c t, fun _ member => absurd member List.not_mem_nil⟩

private theorem record_priced {next : Meter α} {x : Sample α} (priced : m.Priced c) (positive : 0 < c.span)
    (accepted : m.record x = .ok next) : ∀ p ∈ next.pulses, p.PricedBy next.table := by
  obtain ⟨n, _, _, table, step⟩ := record_cases priced.toConsistent positive accepted
  intro q member
  rw [table]
  rcases step with ⟨_, _, none⟩ | ⟨a, _, follows⟩
  · rw [none] at member
    exact absurd member List.not_mem_nil
  -- A frozen pulse is not fitted again, but the table has not changed either.
  rcases follows.kept_or_fitted q member with kept | ⟨p, rfl⟩
  · exact priced.priced q ((m.keptPulses_sublist next.window n).subset kept)
  · exact m.fitPulse_priced next.window p

theorem Change.priced {next : Meter α} (change : Change m next) (positive : 0 < c.span)
    (priced : m.Priced c) : next.Priced c := by
  refine ⟨change.consistent positive priced.toConsistent, ?_⟩
  cases change with
  | record x _ accepted => exact record_priced priced positive accepted
  | clear => exact fun _ member => absurd member List.not_mem_nil
  | withTable t =>
    intro q member
    obtain ⟨p, _, rfl⟩ := List.mem_map.mp member
    rfl

private theorem feed_table (m : Meter α) (x : Sample α) : (m.feed x).table = m.table := by
  rw [feed, record]
  cases m.window.push x with
  | error e => rfl
  | ok pushed => rfl

theorem feed_all_table (stream : List (Sample α)) (m : Meter α) :
    (stream.foldl feed m).table = m.table := by
  induction stream generalizing m with
  | nil => rfl
  | cons x rest ih => exact (ih _).trans (m.feed_table x)

end Meter

namespace Session
variable {m n : Moment α} {e : Event α} {trace : List (Event α)}

def Event.install (t : Table α) : Event α → Table α
  | .did (.setTable points) => (Table.ofPoints points).toOption.getD t
  | _ => t

private theorem next_table (first : m.next? = some (e, n)) :
    n.session.meter.table = e.install m.session.meter.table := by
  rw [next_meter first]
  cases e with
  | did a =>
    cases a with
    | ingest x => exact m.session.meter.feed_table x
    | setTable points =>
      change (Meter.undergo m.session.meter (.setTable points)).table = _
      rw [Meter.undergo, Event.install]
      cases Table.ofPoints points with
      | error e => rfl
      | ok t => rfl
    | _ => rfl
  | served t shown => rfl
  | closed => rfl

private theorem Moment.Passes.table (passes : m.Passes trace n) :
    n.session.meter.table = trace.foldl Event.install m.session.meter.table := by
  induction passes with
  | refl => rfl
  | step first _ ih => rw [ih, next_table first, List.foldl_cons]

/-- At whatever moment of a session, also while rounds are in progress, the table at hand is the last one
that was not refused, and every tracked pulse has the power that this table has for its slope. A table
that is refused changes nothing at that moment, and with all of them left out, wherever they were to be
installed, the session ends as it does with them. -/
theorem powers_follow_table {c : MeterSettings α} {points : List (Point α)} {meter : Meter α}
    (built : Meter.ofSettings c points = .ok meter) (ops : List (Operation α)) :
    let start := Moment.before { meter := meter } ops
    (∀ trace now, start.Passes trace now →
      let table := now.session.meter.table
      table = trace.foldl Event.install meter.table ∧
        (∀ p ∈ now.session.meter.pulses, p.power = table.powerFor? p.slope) ∧
        ∀ bad e, now.session.setTable bad = .error e →
          now.session.undertake (.setTable bad) = (now.session, []) ∧
            Action.withoutRefusals (.setTable bad) = []) ∧
      operate { meter := meter } (ops.flatMap Action.withoutRefusals) =
        (operate { meter := meter } ops).withoutRefusals := by
  obtain ⟨valid, t, _, rfl⟩ := Meter.ofSettings_eq_ok built
  have positive := MeterSettings.span_pos valid
  refine ⟨?_, abridges_withoutRefusals.operate { meter := Meter.start c t } ops⟩
  intro trace now passes
  have priced : now.session.meter.Priced c :=
    passes.leads.keeps (Meter.start_priced c t) fun _ _ change => change.priced positive
  exact ⟨passes.table, priced.priced, fun _ _ refused => undertake_of_refused refused⟩

namespace Swapped

def points (power : Float) : List (Point Float) := [⟨0, 0⟩, ⟨1, power⟩]

def unsorted : List (Point Float) := [⟨1, 2⟩, ⟨0, 1⟩]

/-- The callback is to install a table that is refused, and when it is called again another table. Then the
pulse is frozen, and gets its power once more. -/
def ops : List (Operation Float) :=
  [.subscribeWith [[.setTable unsorted], [.setTable (points 20)]],
    .ingest (TwoHeatings.second 0 0), .ingest (TwoHeatings.second 1 1), .setTable unsorted,
    .ingest (TwoHeatings.second 2 1), .ingest (TwoHeatings.second 3 1), .setTable (points 30)]

def meter : Meter Float := Meter.start TwoHeatings.settings ⟨points 10, by decide⟩

def start : Moment Float := .before { meter } ops

/-- The callback has been called again, and its round is still in progress. -/
def now : Moment Float := (start.run 8).2

end Swapped

theorem powers_follow_table_swapped :
    let last := operate { meter := Swapped.meter } Swapped.ops
    Meter.ofSettings TwoHeatings.settings (Swapped.points 10) = .ok Swapped.meter ∧
      Swapped.start.Passes (Swapped.start.run 8).1 Swapped.now ∧ Swapped.now.tasks.length = 5 ∧
      Swapped.now.session.meter.pulses.map Pulse.power = [some 20] ∧
      (∀ p ∈ Swapped.now.session.meter.pulses,
        p.power = Swapped.now.session.meter.table.powerFor? p.slope) ∧
      Swapped.now.session.setTable Swapped.unsorted = .error (.unsortedTable 0) ∧
      Swapped.now.session.undertake (.setTable Swapped.unsorted) = (Swapped.now.session, []) ∧
      last.meter.pulses.map Pulse.power = [some 30] ∧
      (Swapped.ops.flatMap Action.withoutRefusals).length = 6 ∧
      operate { meter := Swapped.meter } (Swapped.ops.flatMap Action.withoutRefusals) =
        last.withoutRefusals := by
  have built : Meter.ofSettings TwoHeatings.settings (Swapped.points 10) = .ok Swapped.meter := rfl
  have reached := Moment.run_passes 8 Swapped.start
  have refused : Swapped.now.session.setTable Swapped.unsorted = .error (.unsortedTable 0) := rfl
  obtain ⟨always, omitted⟩ := powers_follow_table built Swapped.ops
  obtain ⟨_, priced, unchanged⟩ := always _ _ reached
  exact ⟨built, reached, by decide, by decide +kernel, priced, refused, (unchanged _ _ refused).1,
    by decide +kernel, by decide, omitted⟩

end Session
end Calorimetry
