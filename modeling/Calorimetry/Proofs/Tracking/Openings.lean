import Calorimetry.Proofs.Reporter
import Calorimetry.Proofs.Tracking.Fates

/-! A pulse is known by its start. A sample opens one pulse at most, from the sample before it, so the
starts of all pulses that are ever opened increase, and a start that has left the window does not come
back. What is reported under one start is therefore one pulse. -/

namespace Calorimetry
variable {α : Type} [Scalar α]

namespace Pulses

omit [Scalar α] in
private theorem revise_starts {f : Pulse α → Option (Pulse α)} (keeps : ∀ p q, f p = some q → q.start = p.start)
    (ps : Pulses α) : ((ps.revise f).map Pulse.start).Sublist (ps.map Pulse.start) := by
  induction ps with
  | nil => exact List.Sublist.refl _
  | cons p older ih =>
    rw [revise]
    split
    · exact List.Sublist.refl _
    · rw [List.map_append, List.map_cons]
      cases result : f p with
      | none => exact ih.cons _
      | some q =>
        rw [Option.toList_some, List.map_singleton, keeps p q result]
        exact ih.cons_cons _

omit [Scalar α] in
private theorem settle_starts (minimum : Duration) (ps : Pulses α) :
    ((ps.settle minimum).map Pulse.start).Sublist (ps.map Pulse.start) := by
  apply revise_starts
  intro p q settled
  rw [settleOne] at settled
  split at settled
  · rw [Option.some.inj settled]
  · split at settled
    · cases settled
    · rw [← Option.some.inj settled]

private theorem begin_starts (hot : Bool) (t u : Duration) (rate : α) {others ps : Pulses α}
    (same : others.map Pulse.start = ps.map Pulse.start) :
    (if hot then Pulse.begin t u rate :: others else others).map Pulse.start = ps.map Pulse.start ∨
      (if hot then Pulse.begin t u rate :: others else others).map Pulse.start =
        t :: ps.map Pulse.start := by
  cases hot with
  | false => exact .inl same
  | true => exact .inr (congrArg (t :: ·) same)

private theorem advance_starts (c : MeterSettings α) (w : Window α) (ps : Pulses α) :
    (ps.advance c w).map Pulse.start = ps.map Pulse.start ∨
      ∃ a b, w.lastTwo? = some (a, b) ∧
        (ps.advance c w).map Pulse.start = a.time :: ps.map Pulse.start := by
  rw [advance]
  cases w.latestRate? with
  | none => exact .inl rfl
  | some rate =>
    cases w.lastTwo? with
    | none => exact .inl rfl
    | some last =>
      obtain ⟨a, b⟩ := last
      refine Or.imp_right (fun starts => ⟨a, b, rfl, starts⟩) ?_
      have begins {others : Pulses α} (same : others.map Pulse.start = ps.map Pulse.start) :=
        begin_starts (Scalar.lt c.threshold rate) a.time b.time rate same
      dsimp only
      split
      · exact begins rfl
      · split
        · exact begins rfl
        · split
          · left
            split
            · rfl
            · rfl
          · exact begins rfl

end Pulses

namespace Meter
variable {m : Meter α} {c : MeterSettings α}

/-- The starts of the pulses that a sample opens, which are those put in front of the ones kept. -/
def opened (m : Meter α) (x : Sample α) : List Duration :=
  match m.window.push x with
  | .error _ => []
  | .ok (w, n) =>
    let kept := m.keptPulses w n
    let advanced := kept.advance m.settings w
    (advanced.take (advanced.length - kept.length)).map Pulse.start

/-- The starts of all pulses that a stream opens, in the order in which they are opened. -/
def openings (m : Meter α) : List (Sample α) → List Duration
  | [] => []
  | x :: later => m.opened x ++ (m.feed x).openings later

private theorem openings_append (m : Meter α) (xs ys : List (Sample α)) :
    m.openings (xs ++ ys) = m.openings xs ++ (xs.foldl feed m).openings ys := by
  induction xs generalizing m with
  | nil => rfl
  | cons x rest ih => rw [List.cons_append, openings, ih, openings, List.append_assoc, List.foldl_cons]

private theorem opened_of_push {x : Sample α} {w : Window α} {n : Nat} (pushed : m.window.push x = .ok (w, n)) :
    m.opened x = [] ∧ ((m.keptPulses w n).advance m.settings w).map Pulse.start =
        (m.keptPulses w n).map Pulse.start ∨
      ∃ a b, w.lastTwo? = some (a, b) ∧ m.opened x = [a.time] ∧
        ((m.keptPulses w n).advance m.settings w).map Pulse.start =
          a.time :: (m.keptPulses w n).map Pulse.start := by
  rw [opened, pushed]
  dsimp only
  rcases (m.keptPulses w n).advance_starts m.settings w with same | ⟨a, b, last, starts⟩
  · left
    have count := congrArg List.length same
    rw [List.length_map, List.length_map] at count
    rw [count, Nat.sub_self]
    exact ⟨rfl, same⟩
  · right
    have count := congrArg List.length starts
    rw [List.length_map, List.length_cons, List.length_map] at count
    refine ⟨a, b, last, ?_, starts⟩
    rw [count, Nat.add_sub_cancel_left, List.map_take, starts]
    rfl

private theorem feed_of_push {x : Sample α} {w : Window α} {n : Nat} (pushed : m.window.push x = .ok (w, n)) :
    m.record x = .ok (m.feed x) ∧ (m.feed x).window = w ∧ (m.feed x).pulses = m.follow w n := by
  have recorded : m.record x = .ok { m with window := w, pulses := m.follow w n } := by
    rw [record, pushed]
    rfl
  rw [feed, recorded]
  exact ⟨rfl, rfl, rfl⟩

private theorem feed_of_refused {x : Sample α} {e : Anomaly} (refused : m.window.push x = .error e) :
    m.feed x = m := by
  rw [feed, record, refused]
  rfl

private theorem opened_cases (consistent : m.Consistent c) (positive : 0 < c.span) (x : Sample α) :
    m.opened x = [] ∨ ∃ t, m.opened x = [t] ∧ m.latestTime? = some t ∧
      (m.feed x).latestTime? = some x.time ∧ t < x.time := by
  cases pushed : m.window.push x with
  | error e =>
    left
    rw [opened, pushed]
  | ok result =>
    obtain ⟨w, n⟩ := result
    have entered := m.window.push_entered w x n consistent.sound
      (by rw [consistent.span]; exact positive) pushed
    rcases opened_of_push pushed with ⟨none, _⟩ | ⟨a, b, last, one, _⟩
    · exact .inl none
    · right
      obtain ⟨older, ends⟩ := (w.lastTwo?_eq_some a b).mp last
      have before : m.window.samples.getLast? = some a := by
        have whole : (m.window.samples ++ [x]).take n ++ older ++ [a] ++ [b] = m.window.samples ++ [x] := by
          rw [List.append_assoc _ [a] [b], List.append_assoc, List.singleton_append, ← ends, entered.samples,
            List.take_append_drop]
        rw [← (List.append_inj' whole rfl).1, List.getLast?_concat]
      have newest : m.latestTime? = some a.time := by
        rw [latestTime?, Window.newest?_eq, before]
        rfl
      have later := entered.later a (List.mem_of_getLast? before)
      rw [← (feed_of_push pushed).2.1] at entered
      exact ⟨a.time, one, newest, record_latest entered, later⟩

private theorem feed_starts (m : Meter α) (x : Sample α) :
    ((m.feed x).pulses.map Pulse.start).Sublist (m.opened x ++ m.pulses.map Pulse.start) := by
  cases pushed : m.window.push x with
  | error e =>
    rw [feed_of_refused pushed]
    exact List.sublist_append_right _ _
  | ok result =>
    obtain ⟨w, n⟩ := result
    have kept := (m.keptPulses_sublist w n).map Pulse.start
    have advanced : (((m.keptPulses w n).advance m.settings w).map Pulse.start).Sublist
        (m.opened x ++ m.pulses.map Pulse.start) := by
      rcases opened_of_push pushed with ⟨none, starts⟩ | ⟨a, b, _, one, starts⟩
      · rw [none, starts]
        exact kept
      · rw [one, starts]
        exact kept.cons_cons _
    have keeps : ∀ p q, (some ∘ m.fitPulse w) p = some q → q.start = p.start := by
      intro p q fitted
      rw [← Option.some.inj fitted]
      rfl
    rw [(feed_of_push pushed).2.2]
    exact (Pulses.settle_starts _ _).trans ((Pulses.revise_starts keeps _).trans advanced)

private theorem feed_consistent (consistent : m.Consistent c) (positive : 0 < c.span) (x : Sample α) :
    (m.feed x).Consistent c := by
  rcases m.undergo_cases (.ingest x) with same | change
  · rw [show m.feed x = m from same]
    exact consistent
  · exact Change.consistent change positive consistent

private theorem feed_all_consistent (consistent : m.Consistent c) (positive : 0 < c.span) (xs : List (Sample α)) :
    (xs.foldl feed m).Consistent c := by
  induction xs generalizing m with
  | nil => exact consistent
  | cons x rest ih => exact ih (feed_consistent consistent positive x)

private theorem latest_le_feed (consistent : m.Consistent c) (positive : 0 < c.span) (x : Sample α)
    {t : Duration} (newest : m.latestTime? = some t) :
    ∃ u, (m.feed x).latestTime? = some u ∧ t ≤ u := by
  cases accepted : m.record x with
  | error e =>
    rw [feed, accepted]
    exact ⟨t, newest, Nat.le_refl t⟩
  | ok next =>
    obtain ⟨n, entered, _⟩ := record_entered consistent positive accepted
    rw [feed, accepted]
    refine ⟨x.time, record_latest entered, ?_⟩
    rw [latestTime?, Window.newest?_eq, Option.map_eq_some_iff] at newest
    obtain ⟨last, there, rfl⟩ := newest
    exact Nat.le_of_lt (entered.later last (List.mem_of_getLast? there))

private theorem latest_le_feed_all (consistent : m.Consistent c) (positive : 0 < c.span) (xs : List (Sample α))
    {t : Duration} (newest : m.latestTime? = some t) :
    ∃ u, (xs.foldl feed m).latestTime? = some u ∧ t ≤ u := by
  induction xs generalizing m t with
  | nil => exact ⟨t, newest, Nat.le_refl t⟩
  | cons x rest ih =>
    obtain ⟨u, newer, later⟩ := latest_le_feed consistent positive x newest
    obtain ⟨v, newest, latest⟩ := ih (feed_consistent consistent positive x) newer
    exact ⟨v, newest, Nat.le_trans later latest⟩

/-- The starts of pulses increase in the order in which they are opened, from the newest sample on. -/
theorem openings_increase (consistent : m.Consistent c) (positive : 0 < c.span) (xs : List (Sample α)) :
    (m.openings xs).Pairwise (· < ·) ∧ ∀ t, m.latestTime? = some t → ∀ u ∈ m.openings xs, t ≤ u := by
  -- The bound carries the order: the first pulse opened starts at the sample before this one, the others
  -- at this one or later.
  induction xs generalizing m with
  | nil => exact ⟨.nil, fun _ _ => List.forall_mem_nil _⟩
  | cons x rest ih =>
    obtain ⟨increasing, bound⟩ := ih (feed_consistent consistent positive x)
    rw [openings]
    rcases opened_cases consistent positive x with none | ⟨t, one, newest, newer, before⟩
    · rw [none, List.nil_append]
      refine ⟨increasing, ?_⟩
      intro t newest u member
      obtain ⟨v, newer, later⟩ := latest_le_feed consistent positive x newest
      exact Nat.le_trans later (bound v newer u member)
    · rw [one, List.singleton_append]
      have above := bound x.time newer
      refine ⟨List.pairwise_cons.mpr ⟨fun u member => Nat.lt_of_lt_of_le before (above u member),
        increasing⟩, ?_⟩
      intro t' newest' u member
      cases Option.some.inj (newest.symm.trans newest')
      rcases List.mem_cons.mp member with rfl | behind
      · exact Nat.le_refl _
      · exact Nat.le_of_lt (Nat.lt_of_lt_of_le before (above u behind))

private theorem start_opened (m : Meter α) (xs : List (Sample α)) {p : Pulse α}
    (member : p ∈ (xs.foldl feed m).pulses) :
    p.start ∈ m.openings xs ∨ p.start ∈ m.pulses.map Pulse.start := by
  induction xs generalizing m with
  | nil => exact .inr (List.mem_map_of_mem member)
  | cons x rest ih =>
    rw [openings, List.mem_append]
    rcases ih (m.feed x) member with later | now
    · exact .inl (.inr later)
    · rcases List.mem_append.mp ((m.feed_starts x).subset now) with opened | before
      · exact .inl (.inl opened)
      · exact .inr before

private theorem Consistent.eq_of_start_eq (consistent : m.Consistent c) {p q : Pulse α} (first : p ∈ m.pulses)
    (second : q ∈ m.pulses) (same : p.start = q.start) : p = q := by
  have decreasing : (m.pulses.map Pulse.start).Pairwise (· > ·) := by
    rw [List.pairwise_map]
    exact consistent.starts_decrease
  exact List.inj_on_of_nodup_map (decreasing.imp Nat.ne_of_gt) first second same

/-- No sample in the window is a span older than the newest one. -/
def Recent (m : Meter α) : Prop :=
  ∀ t, m.latestTime? = some t → ∀ a ∈ m.window.samples, t < a.time + m.window.span

theorem start_recent (c : MeterSettings α) (t : Table α) : (start c t).Recent := by
  intro _ newest
  cases newest

theorem feed_recent (consistent : m.Consistent c) (positive : 0 < c.span) (recent : m.Recent)
    (x : Sample α) : (m.feed x).Recent := by
  cases pushed : m.window.push x with
  | error e =>
    rw [feed_of_refused pushed]
    exact recent
  | ok result =>
    obtain ⟨w, n⟩ := result
    have span : 0 < m.window.span := by
      rw [consistent.span]
      exact positive
    have entered := m.window.push_entered w x n consistent.sound span pushed
    have samples := Window.push_samples consistent.sound span pushed
    rw [← (feed_of_push pushed).2.1] at entered samples
    intro t newest a member
    cases Option.some.inj ((record_latest entered).symm.trans newest)
    rw [samples] at member
    rw [entered.span]
    exact (Window.retains_iff _ _ a).mp (List.mem_filter.mp member).2

private theorem feed_all_recent (consistent : m.Consistent c) (positive : 0 < c.span) (recent : m.Recent)
    (xs : List (Sample α)) : (xs.foldl feed m).Recent := by
  induction xs generalizing m with
  | nil => exact recent
  | cons x rest ih =>
    exact ih (feed_consistent consistent positive x) (feed_recent consistent positive recent x)

private theorem frozen_feed_all (consistent : m.Consistent c) (positive : 0 < c.span) {p : Pulse α}
    (member : p ∈ m.pulses) (frozen : p.phase = .frozen) (xs : List (Sample α)) :
    p ∈ (xs.foldl feed m).pulses ∨
      ∃ t, (xs.foldl feed m).latestTime? = some t ∧ p.start + c.span ≤ t := by
  induction xs generalizing m with
  | nil => exact .inl member
  | cons x rest ih =>
    have consistent' := feed_consistent consistent positive x
    cases feed_fate consistent positive x member with
    | continues q tracked same =>
      rw [same.frozen frozen] at tracked
      exact ih consistent' tracked
    | annotated points installed => cases installed
    | leaves x' taken newest gone =>
      obtain ⟨u, newer, later⟩ := latest_le_feed_all consistent' positive rest newest
      exact .inr ⟨u, newer, Nat.le_trans gone later⟩
    | dropped x' taken growing =>
      rw [growing] at frozen
      contradiction
    | cleared done => cases done

private theorem frozen_eq_of_start_eq (consistent : m.Consistent c) (positive : 0 < c.span) (recent : m.Recent)
    (xs : List (Sample α)) {p q : Pulse α} (member : p ∈ m.pulses) (frozen : p.phase = .frozen)
    (tracked : q ∈ (xs.foldl feed m).pulses) (same : p.start = q.start) : p = q := by
  have consistent' := feed_all_consistent consistent positive xs
  rcases frozen_feed_all consistent positive member frozen xs with still | ⟨t, newest, gone⟩
  · exact consistent'.eq_of_start_eq still tracked same
  -- Its start has left, and the window has no sample that old under which another could be tracked.
  · obtain ⟨i, _, spans⟩ := consistent'.placed.spans q tracked
    obtain ⟨a, present, start⟩ := Window.sample_of_indexOf? _ _ _ spans.start
    have young := feed_all_recent consistent positive recent xs t newest a (List.mem_of_getElem? present)
    rw [start, consistent'.span, ← same] at young
    exact absurd gone (Nat.not_le_of_lt young)

/-- An ended pulse and one with the same start, both after some of the samples of one stream. -/
theorem ended_eq_of_start_eq (positive : 0 < c.span) (t : Table α) {xs earlier later : List (Sample α)}
    (first : earlier <+: xs) (second : later <+: xs) {p q : Pulse α}
    (tracked : p ∈ (earlier.foldl feed (start c t)).pulses) (ended : p.phase ≠ .growing)
    (tracked' : q ∈ (later.foldl feed (start c t)).pulses) (ended' : q.phase ≠ .growing)
    (same : p.start = q.start) : p = q := by
  have initial := start_consistent c t
  have recent := start_recent c t
  have frozen {taken : List (Sample α)} {p : Pulse α} (tracked : p ∈ (taken.foldl feed (start c t)).pulses)
      (ended : p.phase ≠ .growing) : p.phase = .frozen := by
    have settled := (feed_all_consistent initial positive taken).settled.none_ending p tracked
    cases phase : p.phase with
    | growing => exact absurd phase ended
    | ending => exact absurd phase settled
    | frozen => rfl
  have forward {taken more : List (Sample α)} {p q : Pulse α}
      (tracked : p ∈ (taken.foldl feed (start c t)).pulses) (ended : p.phase ≠ .growing)
      (tracked' : q ∈ ((taken ++ more).foldl feed (start c t)).pulses) (same : p.start = q.start) :
      p = q := by
    rw [List.foldl_append] at tracked'
    exact frozen_eq_of_start_eq (feed_all_consistent initial positive taken) positive
      (feed_all_recent initial positive recent taken) more tracked (frozen tracked ended) tracked' same
  rcases List.prefix_or_prefix_of_prefix first second with ⟨more, rfl⟩ | ⟨more, rfl⟩
  · exact forward tracked ended tracked' same
  · exact (forward tracked' ended' tracked same.symm).symm

end Meter

namespace Session
variable {c : MeterSettings α}

private theorem meter_of_ingests {m now : Moment α} {trace earlier later : List (Event α)} {xs : List (Sample α)}
    (reached : m.Passes earlier now) (split : trace = earlier ++ later)
    (only : trace.filterMap Event.measuring? = xs.map .ingest) :
    ∃ taken, taken <+: xs ∧ now.session.meter = taken.foldl Meter.feed m.session.meter := by
  rw [split, List.filterMap_append] at only
  obtain ⟨taken, rest, whole, before, _⟩ := List.map_eq_append_iff.mp only.symm
  refine ⟨taken, ⟨rest, whole.symm⟩, ?_⟩
  rw [reached.meter, ← before, List.foldl_map]
  rfl

/-- In a run that takes samples in and is never cleared, the starts of all pulses that are opened increase.
So whatever moments of the run a reporter is shown, in whatever order, it reports each ended pulse that can
be seen at one of them once and as it is, and counts them. -/
theorem starts_name_pulses {points : List (Point α)} {meter : Meter α}
    (built : Meter.ofSettings c points = .ok meter) (ops : List (Operation α)) (trace : List (Event α))
    (last : Moment α) (xs : List (Sample α))
    (only : trace.filterMap Event.measuring? = xs.map .ingest) (moments : List (Moment α))
    (passed : ∀ now ∈ moments, ∃ earlier later, (Moment.before { meter := meter } ops).Passes earlier now ∧
      now.Passes later last ∧ trace = earlier ++ later) :
    let shown := moments.map fun now => now.session.meter.snapshot.pulses
    let reports := Reporter.reportAll {} shown
    let reported := reports.flatten.map LocatedPulse.pulse
    let ended := LocatedPulse.ended shown.flatten
    (meter.openings xs).Pairwise (· < ·) ∧
      (∀ now ∈ moments, ∀ p ∈ now.session.meter.pulses, p.start ∈ meter.openings xs) ∧
      reported.Nodup ∧ (∀ p, p ∈ reported ↔ p ∈ ended) ∧
      (reports.map List.length).foldl (· + ·) 0 = ended.ncard := by
  intro shown reports reported ended
  obtain ⟨valid, t, _, rfl⟩ := Meter.ofSettings_eq_ok built
  have positive := MeterSettings.span_pos valid
  have consistent := Meter.start_consistent c t
  have reached : ∀ now ∈ moments, ∃ taken, taken <+: xs ∧
      now.session.meter = taken.foldl Meter.feed (Meter.start c t) := by
    intro now member
    obtain ⟨earlier, later, before, _, split⟩ := passed now member
    exact meter_of_ingests before split only
  refine ⟨(Meter.openings_increase consistent positive xs).1, ?_, ?_⟩
  · intro now member p tracked
    obtain ⟨taken, ⟨rest, rfl⟩, same⟩ := reached now member
    rw [same] at tracked
    rw [Meter.openings_append]
    rcases Meter.start_opened _ taken tracked with opened | there
    · exact List.mem_append_left _ opened
    · exact absurd there List.not_mem_nil
  · have seen : ∀ p ∈ ended, p.phase ≠ .growing ∧ ∃ taken, taken <+: xs ∧
        p ∈ (taken.foldl Meter.feed (Meter.start c t)).pulses := by
      rintro p ⟨phase, located, member, rfl⟩
      obtain ⟨_, given, present⟩ := List.mem_flatten.mp member
      obtain ⟨now, moment, rfl⟩ := List.mem_map.mp given
      obtain ⟨taken, part, same⟩ := reached now moment
      refine ⟨phase, taken, part, ?_⟩
      rw [← same]
      exact Meter.located_tracked present
    apply Reporter.reportAll_of_named
    intro p first q second same
    obtain ⟨phase, taken, part, tracked⟩ := seen p first
    obtain ⟨phase', taken', part', tracked'⟩ := seen q second
    exact Meter.ended_eq_of_start_eq positive t part part' tracked phase tracked' phase' same

namespace Watched

open TwoHeatings (second)

/-- The first two samples leave with the last but one, and the first heating with the last. -/
def samples : List (Sample Float) :=
  [second 0 0, second 1 0, second 2 0, second 3 1, second 4 1, second 5 1, second 6 2, second 11 2,
    second 13 2]

def meter : Meter Float := Meter.start TwoHeatings.settings Table.empty

def start : Moment Float := .before { meter } [.subscribe, .process samples]

/-- The end of the run and two moments before it. -/
def moments : List (Moment Float) := [20, 26, 30].map fun k => (start.run k).2

def reports : List (List (LocatedPulse Float)) :=
  Reporter.reportAll {} (moments.map fun now => now.session.meter.snapshot.pulses)

end Watched

theorem starts_name_pulses_watched :
    Meter.ofSettings TwoHeatings.settings [] = .ok Watched.meter ∧
      (Watched.start.run 30).1.filterMap Event.measuring? = Watched.samples.map .ingest ∧
      Watched.meter.openings Watched.samples = [2000000000, 5000000000] ∧
      Watched.reports.map (·.map (·.pulse.start)) = [[2000000000], [], [5000000000]] ∧
      (Watched.reports.flatten.map LocatedPulse.pulse).Nodup ∧
      (LocatedPulse.ended
        (Watched.moments.map fun now => now.session.meter.snapshot.pulses).flatten).ncard = 2 := by
  have only : (Watched.start.run 30).1.filterMap Event.measuring? = Watched.samples.map .ingest := rfl
  have passed : ∀ now ∈ Watched.moments, ∃ earlier later, Watched.start.Passes earlier now ∧
      now.Passes later (Watched.start.run 30).2 ∧ (Watched.start.run 30).1 = earlier ++ later := by
    intro now member
    obtain ⟨k, known, rfl⟩ := List.mem_map.mp member
    obtain ⟨left, whole⟩ : ∃ left, 30 = k + left := by
      have bound : ∀ k ∈ [20, 26, 30], k ≤ 30 := by decide
      exact Nat.exists_eq_add_of_le (bound k known)
    rw [whole, Moment.run_add]
    exact ⟨_, _, Moment.run_passes k _, Moment.run_passes left _, rfl⟩
  obtain ⟨_, _, once, _, count⟩ := starts_name_pulses TwoHeatings.built _ _ _ _ only _ passed
  exact ⟨TwoHeatings.built, only, by decide, by decide, once, count.symm⟩

end Session
end Calorimetry
