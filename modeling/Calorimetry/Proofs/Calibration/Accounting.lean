import Calorimetry.Proofs.Calibration.Commands
import Calorimetry.Proofs.Calibration.Legs
import Calorimetry.Proofs.Table

/-! What a calibration run returns. Its points are those of the legs that it carried through, in the
order of a table, and an error says in which leg it stopped and why. The stretches of a run can be
read off its events, so the result is known from the events before the heaters are forced off. -/

namespace Calorimetry.Calibration
variable {σ α : Type}

/-! ## Stretches from events -/

namespace Stretch

theorem error?_eq_none_iff (t : Stretch σ) :
    (∀ e ∈ t.events, e.error? = none) ↔ t.answer = .ok () := by
  have slept : ∀ e ∈ t.slices.map Event.ofSlice, e.error? = none := by
    intro e member
    obtain ⟨_, _, rfl⟩ := List.mem_map.mp member
    rfl
  rw [events, List.forall_mem_cons]
  rcases t.answer with e | ⟨⟩
  · simp [Event.error?]
  · exact ⟨fun _ => rfl, fun _ => ⟨rfl, slept⟩⟩

private theorem forall_mem_events (env : Environment σ α) (t : Stretch σ) :
    (∀ e ∈ t.events, e.error? = none ∧ env.cancelled e.after = false) ↔
      t.answer = .ok () ∧ ∀ x ∈ t.states, env.cancelled x = false := by
  rw [← t.error?_eq_none_iff, ← t.events_after, List.forall_mem_map]
  exact ⟨fun both => ⟨fun e member => (both e member).1, fun e member => (both e member).2⟩,
    fun ⟨first, second⟩ e member => ⟨first e member, second e member⟩⟩

end Stretch

variable [Scalar α]

/-! ## Legs of a plan -/

namespace Plan

/-- The powers of the points of a run that nothing stops, in the order of measuring. -/
def powers (plan : Plan α) : List α := 0 :: plan.settings.order.map plan.power

end Plan

/-! ## What is measured -/

private theorem measured_power {env : Environment σ α} {done : List (Leg α)} {before : List (Stretch σ)}
    (each : List.Forall₂ (Leg.Passed env) done before) :
    (measured env done before).map Point.power = done.filterMap Leg.power? := by
  induction each with
  | nil => rfl
  | @cons leg t done before passed each ih =>
    have point : leg.point? env t = leg.power?.map fun power => ⟨(t.slope? env).getD 0, power⟩ := by
      rw [Leg.point?, passed.complete, if_pos rfl]
    rw [measured, List.zip_cons_cons, List.filterMap_cons, List.filterMap_cons]
    dsimp only
    rw [point]
    cases leg.power? with
    | none => exact ih
    | some power => exact congrArg (power :: ·) ih

theorem measured_stopped {env : Environment σ α} {done : List (Leg α)} {before : List (Stretch σ)}
    (each : List.Forall₂ (Leg.Passed env) done before) {leg : Leg α} (left : List (Leg α))
    {t : Stretch σ} {stage : Stage} {cause : Cause} (stopped : leg.Stopped env t stage cause) :
    measured env (done ++ leg :: left) (before ++ [t]) = measured env done before := by
  have none : leg.point? env t = none := by
    rw [Leg.point?, stopped.incomplete]
    rfl
  rw [measured_concat env each, none, Option.toList_none, List.append_nil]

namespace Fares
variable {env : Environment σ α} {legs : List (Leg α)} {stretches : List (Stretch σ)}
  {reason : Option (Stage × Cause)}

omit [Scalar α] in
theorem commands (fares : Fares env legs stretches reason) :
    stretches.map Stretch.command <+: legs.map Leg.command := by
  have alike {done : List (Leg α)} {before : List (Stretch σ)}
      (each : List.Forall₂ (Leg.Passed env) done before) :
      before.map Stretch.command = done.map Leg.command := by
    induction each with
    | nil => rfl
    | cons passed _ ih => rw [List.map_cons, List.map_cons, passed.command, ih]
  cases fares with
  | through each =>
    exact ⟨[], by rw [List.append_nil, alike each]⟩
  | stops done leg left before t stage cause parted last each stopped =>
    have command : t.command = leg.command := by
      cases stopped with
      | refused _ command => exact command
      | cancelled command => exact command
    rw [parted, last, List.map_append, List.map_append, alike each, List.map_singleton, command]
    exact (List.prefix_append_right_inj _).mpr ⟨left.map Leg.command, rfl⟩

private theorem powers (fares : Fares env legs stretches reason) :
    (measured env legs stretches).map Point.power <+: legs.filterMap Leg.power? := by
  cases fares with
  | through each =>
    exact ⟨[], by rw [List.append_nil, measured_power each]⟩
  | stops done leg left before t stage cause parted last each stopped =>
    rw [parted, last, measured_stopped each left stopped, measured_power each, List.filterMap_append]
    exact List.prefix_append _ _

omit [Scalar α] in
/-- The run goes through all legs exactly if every command was accepted and the flag never set. -/
theorem through_iff (fares : Fares env legs stretches reason) :
    reason = none ↔ ∀ e ∈ stretches.flatMap Stretch.events,
      e.error? = none ∧ env.cancelled e.after = false := by
  simp only [List.forall_mem_flatMap, Stretch.forall_mem_events]
  cases fares with
  | through each =>
    refine iff_of_true rfl ?_
    induction each with
    | nil => simp
    | cons passed _ ih => exact List.forall_mem_cons.mpr ⟨⟨passed.accepted, passed.quiet⟩, ih⟩
  | stops done leg left before t stage cause parted last each stopped =>
    refine iff_of_false (Option.some_ne_none _) ?_
    intro calm
    obtain ⟨accepted, quiet⟩ := calm t (by simp [last])
    cases stopped with
    | refused e _ answer =>
      rw [answer] at accepted
      contradiction
    | cancelled _ _ _ set =>
      rw [quiet t.ended (List.getLast_mem _)] at set
      contradiction

omit [Scalar α] in
/-- In which leg a run stops, and why, is known from what it did. -/
theorem unique {other : Environment σ α} (flag : other.cancelled = env.cancelled)
    {reason' : Option (Stage × Cause)} (first : Fares env legs stretches reason)
    (second : Fares other legs stretches reason') : reason' = reason := by
  have through : reason' = none ↔ reason = none := by
    rw [first.through_iff, second.through_iff, flag]
  cases first with
  | through => exact through.mpr rfl
  | stops done leg left before t stage cause parted last each stopped =>
    cases second with
    | through => exact (through.mp rfl).symm
    | stops done' leg' left' before' t' stage' cause' parted' last' each' stopped' =>
      have beginning := List.append_inj' (last.symm.trans last') rfl
      obtain ⟨rfl, ⟨⟩⟩ := beginning
      have length := each.length_eq.trans each'.length_eq.symm
      have rest := List.append_inj_right (parted.symm.trans parted') length
      obtain ⟨rfl, _⟩ := List.cons.inj rest
      cases stopped with
      | refused e _ answer =>
        cases stopped' with
        | refused e' _ answer' =>
          obtain ⟨⟩ := answer.symm.trans answer'
          rfl
        | cancelled _ accepted' =>
          have impossible := answer.symm.trans accepted'
          contradiction
      | cancelled _ accepted =>
        cases stopped' with
        | refused e' _ answer' =>
          have impossible := accepted.symm.trans answer'
          contradiction
        | cancelled => rfl

end Fares

/-! ## The outcome -/

omit [Scalar α] in
theorem Leg.Stopped.last {env : Environment σ α} {leg : Leg α} {t : Stretch σ} {stage : Stage}
    {cause : Cause} (stopped : leg.Stopped env t stage cause) :
    ∃ last, t.events.getLast? = some last ∧
      ((∃ e, last.error? = some e ∧ stage = leg.switching ∧ cause = .device (.ofHardware e)) ∨
        (last.error? = none ∧ env.cancelled last.after = true ∧ stage = leg.waiting ∧
          cause = .cancelled)) := by
  have some : ∃ last, t.events.getLast? = some last :=
    ⟨_, List.getLast?_eq_some_getLast (List.cons_ne_nil _ _)⟩
  obtain ⟨last, latest⟩ := some
  refine ⟨last, latest, ?_⟩
  cases stopped with
  | refused e _ answer alone =>
    rw [Stretch.events, alone, answer] at latest
    obtain ⟨⟩ := latest
    exact .inl ⟨e, rfl, rfl, rfl⟩
  | cancelled _ accepted _ set =>
    have fine := t.error?_eq_none_iff.mpr accepted last (List.mem_of_getLast? latest)
    rw [← t.events_getLast last latest] at set
    exact .inr ⟨fine, set, rfl, rfl⟩

/-- How a run ends that did some stretches before the heaters are forced off. -/
inductive Ended (plan : Plan α) (env : Environment σ α) (stretches : List (Stretch σ)) :
    Except (Aborted α) (Table α) → Prop
  | stopped (stage : Stage) (cause : Cause)
      (fares : Fares env plan.legs stretches (some (stage, cause))) :
      Ended plan env stretches
        (.error ⟨stage, cause, Table.sorted (measured env plan.legs stretches)⟩)
  | tabled (table : Table α) (fares : Fares env plan.legs stretches none)
      (points : table.points = Table.sorted (measured env plan.legs stretches)) :
      Ended plan env stretches (.ok table)
  | untabled (e : ConfigError) (fares : Fares env plan.legs stretches none)
      (fault : Point.fault? (Table.sorted (measured env plan.legs stretches)) = some e) :
      Ended plan env stretches
        (.error ⟨.assembly, .table e, Table.sorted (measured env plan.legs stretches)⟩)

theorem run_ended (plan : Plan α) (env : Environment σ α) (s : σ) :
    let observed := run plan env.observed ⟨s, []⟩
    ∃ stretches answer after, Ended plan env stretches observed.1 ∧
      observed.2 =
        ⟨after, stretches.flatMap Stretch.events ++ [.commanded Heaters.off answer after]⟩ := by
  intro observed
  obtain ⟨stretches, fares, events, points⟩ := sequence_told plan env s
  have forced : ∃ answer after, observed.2 =
      ⟨after, stretches.flatMap Stretch.events ++ [.commanded Heaters.off answer after]⟩ := by
    have state : observed.2 = (run plan env.observed ⟨s, []⟩).2 := rfl
    rw [state, run_state, ← events]
    exact ⟨_, _, rfl⟩
  obtain ⟨answer, after, forced⟩ := forced
  refine ⟨stretches, answer, after, ?_, forced⟩
  have result : observed.1 = (run plan env.observed ⟨s, []⟩).1 := rfl
  rw [result, run]
  generalize sequence plan env.observed ⟨s, []⟩ = p at fares points
  dsimp only
  rw [points]
  cases stopped : p.stopped with
  | some reason =>
    rw [stopped] at fares
    exact .stopped _ _ fares
  | none =>
    rw [stopped] at fares
    rcases Table.ofPoints_cases (Table.sorted (measured env plan.legs stretches)) with
      ⟨table, made, same, _⟩ | ⟨e, failed, fault⟩
    · rw [made]
      exact .tabled table fares same
    · rw [failed]
      exact .untabled e fares fault

namespace Ended
variable {plan : Plan α} {env : Environment σ α} {stretches : List (Stretch σ)}
  {result : Except (Aborted α) (Table α)}

theorem fares (ended : Ended plan env stretches result) :
    ∃ reason, Fares env plan.legs stretches reason := by
  cases ended with
  | stopped _ _ fares => exact ⟨_, fares⟩
  | tabled _ fares => exact ⟨_, fares⟩
  | untabled _ fares => exact ⟨_, fares⟩

private theorem unique {other : Environment σ α} {result' : Except (Aborted α) (Table α)}
    (flag : other.cancelled = env.cancelled)
    (points : measured other plan.legs stretches = measured env plan.legs stretches)
    (first : Ended plan env stretches result) (second : Ended plan other stretches result') :
    result' = result := by
  cases first with
  | stopped stage cause fares =>
    cases second with
    | stopped stage' cause' fares' =>
      obtain ⟨⟩ := fares.unique flag fares'
      rw [points]
    | tabled table fares' => exact absurd (fares.unique flag fares') (Option.some_ne_none _).symm
    | untabled e fares' => exact absurd (fares.unique flag fares') (Option.some_ne_none _).symm
  | tabled table fares same =>
    cases second with
    | stopped stage cause fares' => exact absurd (fares.unique flag fares') (Option.some_ne_none _)
    | tabled table' fares' same' =>
      obtain ⟨_, _⟩ := table
      obtain ⟨_, _⟩ := table'
      rw [points] at same'
      obtain rfl : _ = _ := same'.trans same.symm
      rfl
    | untabled e fares' fault =>
      have none := table.sound
      rw [same, ← points, fault] at none
      contradiction
  | untabled e fares fault =>
    cases second with
    | stopped stage cause fares' => exact absurd (fares.unique flag fares') (Option.some_ne_none _)
    | tabled table fares' same =>
      have none := table.sound
      rw [same, points, fault] at none
      contradiction
    | untabled e' fares' fault' =>
      rw [points, fault] at fault'
      rw [points, Option.some.inj fault']

variable [Scalar.Ordered α]

end Ended

namespace Drill

/-- Two heaters, and every wait is over after one slice. -/
def plan : Plan Float where
  settings := { baseline := 1, heater := 1, cooloff := 1, poll := 1, order := [1, 2] }
  sound := by decide

/-- Time passes by sleeping alone. The flag is set from some time on, and a pulse that begins after
the baseline has always the same slope, if there is one. -/
def environment (refused : Heaters → Bool) (alarm : Nat) (slope? : Option Float) :
    Environment Nat Float where
  command h t := (if refused h then .error .timeout else .ok (), t)
  sleep d t := t + d
  now t := t
  cancelled t := alarm ≤ t
  latestTime? t := some t
  slopeSince? since _ := if since = 0 then none else slope?
  now_lt_sleep _ _ positive := Nat.lt_add_of_pos_right positive

variable (refused : Heaters → Bool) (alarm : Nat) (slope? : Option Float)

theorem switch (stage : Stage) (h : Heaters) (t : Nat) (events : List (Event Nat))
    (points : List (Point Float)) :
    Progress.switch (environment refused alarm slope?).observed stage h ⟨⟨t, events⟩, points, none⟩ =
      ⟨⟨t, events ++ [.commanded h (if refused h then .error .timeout else .ok ()) t]⟩, points,
        if refused h then some (stage, .device .timeout) else none⟩ := by
  cases answer : refused h <;>
    simp [Progress.switch, Progress.unlessStopped, Environment.observed, environment, answer,
      Progress.stop, DeviceError.ofHardware]

theorem wait (stage : Stage) (t : Nat) (quiet : t < alarm) (events : List (Event Nat))
    (points : List (Point Float)) :
    Progress.wait plan (environment refused alarm slope?).observed stage 1
        ⟨⟨t, events⟩, points, none⟩ =
      ⟨⟨t + 1, events ++ [.slept 1 (t + 1)]⟩, points,
        if alarm ≤ t + 1 then some (stage, .cancelled) else none⟩ := by
  have slice : waitUntil plan (environment refused alarm slope?).observed t 1 ⟨t, events⟩ =
      (decide (alarm ≤ t + 1), ⟨t + 1, events ++ [.slept 1 (t + 1)]⟩) := by
    rw [waitUntil, waitUntil]
    by_cases set : alarm ≤ t + 1
    · simp [Environment.observed, environment, plan, quiet, set]
    · simp [Environment.observed, environment, plan, quiet, set]
  have now : (environment refused alarm slope?).observed.now ⟨t, events⟩ = t := rfl
  by_cases set : alarm ≤ t + 1
  · simp [Progress.wait, Progress.unlessStopped, now, slice, set, Progress.stop]
  · simp [Progress.wait, Progress.unlessStopped, now, slice, set]

theorem measure (stage : Stage) (power : Float) (t : Nat) (quiet : t < alarm)
    (events : List (Event Nat)) (points : List (Point Float)) :
    Progress.measure plan (environment refused alarm slope?).observed stage 1 power
        ⟨⟨t, events⟩, points, none⟩ =
      ⟨⟨t + 1, events ++ [.slept 1 (t + 1)]⟩,
        if alarm ≤ t + 1 then points
          else points ++ [⟨(if t = 0 then none else slope?).getD 0, power⟩],
        if alarm ≤ t + 1 then some (stage, .cancelled) else none⟩ := by
  by_cases set : alarm ≤ t + 1
  · simp [Progress.measure, Progress.unlessStopped, wait, quiet, set]
  · simp [Progress.measure, Progress.unlessStopped, wait, quiet, set]
    rfl

end Drill

end Calorimetry.Calibration
