import Calorimetry.Proofs.Calibration.Trace
import Mathlib.Data.List.Forall2

/-! The legs of a calibration run. A leg is a command and the wait after it. A run goes through its
legs in a fixed order up to the one in which it stops, and what it did in one leg is a stretch of its
events. Whatever a run can end in is told by the stretches. -/

namespace Calorimetry.Calibration
variable {σ α : Type}

/-- `switching` is the stage of the command and `waiting` that of the wait. If there is a `power?`,
the slope at the end of the wait is noted with it. -/
structure Leg (α : Type) where
  command : Heaters
  switching : Stage
  waiting : Stage
  duration : Duration
  power? : Option α

/-- A command with its answer and the state it left, and the slices slept through after it. -/
structure Stretch (σ : Type) where
  command : Heaters
  answer : Except HardwareError Unit
  begun : σ
  slices : List (Duration × σ)

def Event.ofSlice (slice : Duration × σ) : Event σ := .slept slice.1 slice.2

def Event.after : Event σ → σ
  | .commanded _ _ after => after
  | .slept _ after => after

def Event.error? : Event σ → Option HardwareError
  | .commanded _ (.error e) _ => some e
  | _ => none

namespace Stretch

def events (t : Stretch σ) : List (Event σ) :=
  .commanded t.command t.answer t.begun :: t.slices.map Event.ofSlice

def states (t : Stretch σ) : List σ := t.begun :: t.slices.map Prod.snd

def ended (t : Stretch σ) : σ := t.states.getLast (List.cons_ne_nil _ _)

/-- The command was accepted and the wait was not cancelled. -/
def isComplete (env : Environment σ α) (t : Stretch σ) : Bool :=
  t.answer.isOk && !env.cancelled t.ended

/-- The slope, at the end, of the latest pulse that began no earlier than the wait. -/
def slope? (env : Environment σ α) (t : Stretch σ) : Option α :=
  env.slopeSince? ((env.latestTime? t.begun).getD 0) t.ended

theorem events_after (t : Stretch σ) : t.events.map Event.after = t.states := by
  simp [events, states, Event.ofSlice, Event.after, Function.comp_def]

private theorem states_eq (t : Stretch σ) : t.states = t.states.dropLast ++ [t.ended] :=
  (List.dropLast_append_getLast _).symm

theorem events_getLast (t : Stretch σ) (last : Event σ) (latest : t.events.getLast? = some last) :
    last.after = t.ended := by
  have same := congrArg List.getLast? t.events_after
  have ended : t.states.getLast? = some t.ended := List.getLast?_eq_some_getLast _
  rw [List.getLast?_map, latest, ended] at same
  exact Option.some.inj same

end Stretch

variable [Scalar α]

def Leg.point? (leg : Leg α) (env : Environment σ α) (t : Stretch σ) : Option (Point α) :=
  if t.isComplete env then leg.power?.map fun power => ⟨(t.slope? env).getD 0, power⟩ else none

/-- The points of the legs that were carried through, in the order in which they were measured. -/
def measured (env : Environment σ α) (legs : List (Leg α)) (stretches : List (Stretch σ)) :
    List (Point α) :=
  (legs.zip stretches).filterMap fun did => did.1.point? env did.2

namespace Plan

def restingLeg (plan : Plan α) : Leg α :=
  ⟨Heaters.off, .baseline, .baseline, plan.settings.baseline, some 0⟩

def heatingLeg (plan : Plan α) (n : Nat) : Leg α :=
  ⟨Heaters.only n, .heater n, .heater n, plan.settings.heater, some (plan.power n)⟩

def coolingLeg (plan : Plan α) (n : Nat) : Leg α :=
  ⟨Heaters.off, .heater n, .cooloff n, plan.settings.cooloff, none⟩

def legs (plan : Plan α) : List (Leg α) :=
  plan.restingLeg :: plan.settings.order.flatMap fun n => [plan.heatingLeg n, plan.coolingLeg n]

end Plan

/-! ## Legs one by one -/

/-- The wait of a leg, with a measurement if there is a power to go with it. -/
def Progress.waitLeg (plan : Plan α) (env : Environment σ α) (leg : Leg α) :
    Progress σ α → Progress σ α :=
  match leg.power? with
  | some power => Progress.measure plan env leg.waiting leg.duration power
  | none => Progress.wait plan env leg.waiting leg.duration

def Progress.runLeg (plan : Plan α) (env : Environment σ α) (p : Progress σ α) (leg : Leg α) :
    Progress σ α :=
  (p.switch env leg.switching leg.command).waitLeg plan env leg

theorem sequence_eq_legs (plan : Plan α) (env : Environment σ α) (s : σ) :
    sequence plan env s = plan.legs.foldl (Progress.runLeg plan env) ⟨s, [], none⟩ := by
  have pairs (order : List Nat) (p : Progress σ α) :
      order.foldl (Progress.runHeater plan env) p =
        (order.flatMap fun n => [plan.heatingLeg n, plan.coolingLeg n]).foldl
          (Progress.runLeg plan env) p := by
    induction order generalizing p with
    | nil => rfl
    | cons n rest ih =>
      rw [List.flatMap_cons, List.foldl_append, List.foldl_cons, ih]
      rfl
  rw [Plan.legs, List.foldl_cons, ← pairs]
  rfl

/-- The leg was carried through in the stretch. -/
structure Leg.Passed (env : Environment σ α) (leg : Leg α) (t : Stretch σ) : Prop where
  command : t.command = leg.command
  accepted : t.answer = .ok ()
  quiet : ∀ x ∈ t.states, env.cancelled x = false
  whole : leg.duration ≤ env.now t.ended - env.now t.begun

/-- The run stopped in the leg, and the stretch is what it still did. -/
inductive Leg.Stopped (env : Environment σ α) (leg : Leg α) (t : Stretch σ) : Stage → Cause → Prop
  | refused (e : HardwareError) (command : t.command = leg.command) (answer : t.answer = .error e)
      (alone : t.slices = []) : Stopped env leg t leg.switching (.device (.ofHardware e))
  | cancelled (command : t.command = leg.command) (accepted : t.answer = .ok ())
      (quiet : ∀ x ∈ t.states.dropLast, env.cancelled x = false)
      (set : env.cancelled t.ended = true) : Stopped env leg t leg.waiting .cancelled

omit [Scalar α] in
theorem Leg.Passed.complete {env : Environment σ α} {leg : Leg α} {t : Stretch σ}
    (passed : leg.Passed env t) : t.isComplete env = true := by
  have last := passed.quiet t.ended (List.getLast_mem _)
  simp [Stretch.isComplete, passed.accepted, last, Except.isOk, Except.toBool]

omit [Scalar α] in
theorem Leg.Stopped.incomplete {env : Environment σ α} {leg : Leg α} {t : Stretch σ} {stage : Stage}
    {cause : Cause} (stopped : leg.Stopped env t stage cause) : t.isComplete env = false := by
  cases stopped with
  | refused e _ answer _ => simp [Stretch.isComplete, answer, Except.isOk, Except.toBool]
  | cancelled _ _ _ set => simp [Stretch.isComplete, set]

/-- Induction on the waiting. The flag is looked at in every state that is left by sleeping, so the
answer is what it says in the last one. -/
private theorem waitUntil_slices (plan : Plan α) (env : Environment σ α) (start d : Nat) (h : Heaters)
    (o : Observed σ) :
    ∃ (cancelled : Bool) (slices : List (Duration × σ)),
      let t : Stretch σ := ⟨h, .ok (), o.state, slices⟩
      waitUntil plan env.observed start d o =
        (cancelled, ⟨t.ended, o.events ++ slices.map Event.ofSlice⟩) ∧
      env.cancelled t.ended = cancelled ∧
      (∀ x ∈ t.states.dropLast, env.cancelled x = false) ∧
      (cancelled = false → d ≤ env.now t.ended - start) := by
  induction o using waitUntil.induct plan env.observed start d with
  | case1 o set =>
    refine ⟨true, [], ?_, set, ?_, ?_⟩
    · rw [waitUntil, if_pos set, List.map_nil, List.append_nil]
      rfl
    · simp [Stretch.states]
    · intro impossible
      contradiction
  | case2 o going done =>
    refine ⟨false, [], ?_, Bool.eq_false_iff.mpr going, ?_, fun _ => done⟩
    · rw [waitUntil, if_neg going, if_pos done, List.map_nil, List.append_nil]
      rfl
    · simp [Stretch.states]
  | case3 o going short slice ih =>
    obtain ⟨cancelled, slices, waited, set, quiet, whole⟩ := ih
    let after := env.sleep slice o.state
    have ended : Stretch.ended ⟨h, .ok (), o.state, (slice, after) :: slices⟩ =
        Stretch.ended ⟨h, .ok (), after, slices⟩ := List.getLast_cons (List.cons_ne_nil _ _)
    refine ⟨cancelled, (slice, after) :: slices, ?_, ?_, ?_, ?_⟩
    · rw [waitUntil, if_neg going, if_neg short, ended]
      refine waited.trans ?_
      rw [List.map_cons, ← List.singleton_append, ← List.append_assoc]
      rfl
    · rw [ended]
      exact set
    · exact List.forall_mem_cons.mpr ⟨Bool.eq_false_iff.mpr going, quiet⟩
    · rw [ended]
      exact whole

namespace Progress

omit [Scalar α] in
theorem unlessStopped_of_going {p : Progress σ α} (f : Progress σ α → Progress σ α)
    (going : p.stopped = none) : p.unlessStopped f = f p := by
  rw [unlessStopped, going]
  rfl

omit [Scalar α] in
theorem unlessStopped_of_stopped {p : Progress σ α} (f : Progress σ α → Progress σ α)
    {reason : Stage × Cause} (stopped : p.stopped = some reason) : p.unlessStopped f = p := by
  rw [unlessStopped, stopped]
  rfl

omit [Scalar α] in
theorem switch_of_ok {env : Environment σ α} {h : Heaters} {s after : σ}
    (accepted : env.command h s = (.ok (), after)) (stage : Stage) (points : List (Point α)) :
    Progress.switch env stage h ⟨s, points, none⟩ = ⟨after, points, none⟩ := by
  rw [switch, unlessStopped_of_going _ rfl]
  simp only [accepted]

theorem wait_of_whole {plan : Plan α} {env : Environment σ α} {d : Duration} {s after : σ}
    (waited : waitUntil plan env (env.now s) d s = (false, after)) (stage : Stage)
    (points : List (Point α)) :
    Progress.wait plan env stage d ⟨s, points, none⟩ = ⟨after, points, none⟩ := by
  rw [wait, unlessStopped_of_going _ rfl]
  simp only [waited]

theorem measure_of_whole {plan : Plan α} {env : Environment σ α} {d : Duration} {s after : σ}
    (waited : waitUntil plan env (env.now s) d s = (false, after)) (stage : Stage) (power : α)
    (points : List (Point α)) :
    Progress.measure plan env stage d power ⟨s, points, none⟩ =
      ⟨after, points ++ [⟨(env.slopeSince? ((env.latestTime? s).getD 0) after).getD 0, power⟩],
        none⟩ := by
  rw [measure, unlessStopped_of_going _ rfl]
  simp only [wait_of_whole waited]
  rw [unlessStopped_of_going _ rfl]

private theorem waitLeg_of_stopped (plan : Plan α) (env : Environment σ α) {p : Progress σ α}
    {reason : Stage × Cause} (stopped : p.stopped = some reason) (leg : Leg α) :
    p.waitLeg plan env leg = p := by
  rw [waitLeg]
  cases leg.power? with
  | some power => exact unlessStopped_of_stopped _ stopped
  | none => exact unlessStopped_of_stopped _ stopped

private theorem runLeg_of_stopped (plan : Plan α) (env : Environment σ α) {p : Progress σ α}
    {reason : Stage × Cause} (stopped : p.stopped = some reason) (leg : Leg α) :
    p.runLeg plan env leg = p := by
  have same : p.switch env leg.switching leg.command = p := unlessStopped_of_stopped _ stopped
  rw [runLeg, same]
  exact waitLeg_of_stopped plan env stopped leg

private theorem waitLeg_cases (plan : Plan α) (env : Environment σ α) (leg : Leg α) (after : σ)
    (events : List (Event σ)) (points : List (Point α)) :
    let p : Progress (Observed σ) α := ⟨⟨after, events⟩, points, none⟩
    ∃ t : Stretch σ, t.command = leg.command ∧ t.answer = .ok () ∧ t.begun = after ∧
      let next := p.waitLeg plan env.observed leg
      next.state.events = events ++ t.slices.map Event.ofSlice ∧
      next.points = points ++ (leg.point? env t).toList ∧
      ((leg.Passed env t ∧ next.stopped = none) ∨
        ∃ stage cause, leg.Stopped env t stage cause ∧ next.stopped = some (stage, cause)) := by
  intro p
  obtain ⟨cancelled, slices, waited, set, quiet, whole⟩ := waitUntil_slices plan env
    (env.observed.now ⟨after, events⟩) leg.duration leg.command ⟨after, events⟩
  let t : Stretch σ := ⟨leg.command, .ok (), after, slices⟩
  have wait : p.wait plan env.observed leg.waiting leg.duration =
      ⟨⟨t.ended, events ++ slices.map Event.ofSlice⟩, points,
        if cancelled then some (leg.waiting, .cancelled) else none⟩ := by
    rw [Progress.wait, unlessStopped_of_going _ rfl]
    dsimp only [p]
    rw [waited]
    cases cancelled <;> rfl
  refine ⟨t, rfl, rfl, rfl, ?_⟩
  cases cancelled with
  | true =>
    have stopped : leg.Stopped env t leg.waiting .cancelled := .cancelled rfl rfl quiet set
    have none : leg.point? env t = none := by
      rw [Leg.point?, stopped.incomplete]
      rfl
    rw [waitLeg, none, Option.toList_none, List.append_nil]
    cases leg.power? with
    | some power =>
      dsimp only
      rw [measure, unlessStopped_of_going _ rfl, wait]
      exact ⟨rfl, rfl, .inr ⟨_, _, stopped, rfl⟩⟩
    | none =>
      dsimp only
      rw [wait]
      exact ⟨rfl, rfl, .inr ⟨_, _, stopped, rfl⟩⟩
  | false =>
    have all : ∀ x ∈ t.states, env.cancelled x = false := by
      rw [t.states_eq]
      exact List.forall_mem_append.mpr ⟨quiet, List.forall_mem_singleton.mpr set⟩
    have passed : leg.Passed env t := ⟨rfl, rfl, all, whole rfl⟩
    have point : leg.point? env t = leg.power?.map fun power => ⟨(t.slope? env).getD 0, power⟩ := by
      rw [Leg.point?, passed.complete, if_pos rfl]
    rw [waitLeg, point]
    cases leg.power? with
    | some power =>
      dsimp only
      rw [measure, unlessStopped_of_going _ rfl, wait]
      exact ⟨rfl, rfl, .inl ⟨passed, rfl⟩⟩
    | none =>
      dsimp only
      rw [wait, Option.map_none, Option.toList_none, List.append_nil]
      exact ⟨rfl, rfl, .inl ⟨passed, rfl⟩⟩

private theorem runLeg_cases (plan : Plan α) (env : Environment σ α) (leg : Leg α)
    (p : Progress (Observed σ) α) (going : p.stopped = none) :
    ∃ t : Stretch σ, let next := p.runLeg plan env.observed leg
      next.state.events = p.state.events ++ t.events ∧
      next.points = p.points ++ (leg.point? env t).toList ∧
      ((leg.Passed env t ∧ next.stopped = none) ∨
        ∃ stage cause, leg.Stopped env t stage cause ∧ next.stopped = some (stage, cause)) := by
  obtain ⟨⟨before, events⟩, points, stopped⟩ := p
  cases going
  rcases answered : env.command leg.command before with ⟨e | ⟨⟩, after⟩
  · have switched : Progress.switch env.observed leg.switching leg.command
        ⟨⟨before, events⟩, points, none⟩ =
        ⟨⟨after, events ++ [.commanded leg.command (.error e) after]⟩, points,
          some (leg.switching, .device (.ofHardware e))⟩ := by
      rw [switch, unlessStopped_of_going _ rfl]
      simp only [Environment.observed, answered, stop]
    have stopped : leg.Stopped env ⟨leg.command, .error e, after, []⟩ leg.switching
        (.device (.ofHardware e)) := .refused e rfl rfl rfl
    refine ⟨⟨leg.command, .error e, after, []⟩, ?_⟩
    rw [runLeg, switched, waitLeg_of_stopped _ _ rfl, Leg.point?, stopped.incomplete]
    exact ⟨rfl, (List.append_nil _).symm, .inr ⟨_, _, stopped, rfl⟩⟩
  · have switched : Progress.switch env.observed leg.switching leg.command
        ⟨⟨before, events⟩, points, none⟩ =
        ⟨⟨after, events ++ [.commanded leg.command (.ok ()) after]⟩, points, none⟩ := by
      rw [switch, unlessStopped_of_going _ rfl]
      simp only [Environment.observed, answered]
    obtain ⟨t, command, answer, begun, sleeps, did⟩ := waitLeg_cases plan env leg after
      (events ++ [.commanded leg.command (.ok ()) after]) points
    refine ⟨t, ?_⟩
    rw [runLeg, switched]
    refine ⟨?_, did⟩
    rw [sleeps, Stretch.events, command, answer, begun, List.append_assoc]
    rfl

end Progress

/-- How a run fares in some legs. It goes through all of them, or it stops in one, and that is the
leg of the last stretch. -/
inductive Fares (env : Environment σ α) (legs : List (Leg α)) (stretches : List (Stretch σ)) :
    Option (Stage × Cause) → Prop
  | through (each : List.Forall₂ (Leg.Passed env) legs stretches) : Fares env legs stretches none
  | stops (done : List (Leg α)) (leg : Leg α) (left : List (Leg α)) (before : List (Stretch σ))
      (t : Stretch σ) (stage : Stage) (cause : Cause) (parted : legs = done ++ leg :: left)
      (last : stretches = before ++ [t]) (each : List.Forall₂ (Leg.Passed env) done before)
      (stopped : leg.Stopped env t stage cause) : Fares env legs stretches (some (stage, cause))

theorem measured_concat (env : Environment σ α) {done : List (Leg α)} {before : List (Stretch σ)}
    (each : List.Forall₂ (Leg.Passed env) done before) (leg : Leg α) (left : List (Leg α))
    (t : Stretch σ) :
    measured env (done ++ leg :: left) (before ++ [t]) =
      measured env done before ++ (leg.point? env t).toList := by
  rw [measured, List.zip_append each.length_eq, List.filterMap_append, List.zip_cons_cons,
    List.zip_nil_right, List.filterMap_cons, measured]
  dsimp only
  cases leg.point? env t with
  | none => rfl
  | some point => rfl

/-- The stretches tell what a run did and noted in some legs. -/
structure Progress.Told (env : Environment σ α) (legs : List (Leg α)) (stretches : List (Stretch σ))
    (p : Progress (Observed σ) α) : Prop where
  fares : Fares env legs stretches p.stopped
  events : p.state.events = stretches.flatMap Stretch.events
  points : p.points = measured env legs stretches

private theorem Progress.Told.runLeg {env : Environment σ α} {legs : List (Leg α)}
    {stretches : List (Stretch σ)} {p : Progress (Observed σ) α} (told : p.Told env legs stretches)
    (plan : Plan α) (leg : Leg α) :
    ∃ more, (p.runLeg plan env.observed leg).Told env (legs ++ [leg]) more := by
  obtain ⟨fares, events, points⟩ := told
  cases ended : p.stopped with
  | some reason =>
    rw [ended] at fares
    obtain _ | ⟨done, last, left, before, t, stage, cause, rfl, rfl, each, stopped⟩ := fares
    rw [Progress.runLeg_of_stopped plan _ ended]
    refine ⟨before ++ [t], ?_, events, ?_⟩
    · rw [ended]
      exact .stops done last (left ++ [leg]) before t _ _ (List.append_assoc ..) rfl each stopped
    · rw [points, measured_concat env each, List.append_assoc, List.cons_append,
        measured_concat env each]
  | none =>
    rw [ended] at fares
    obtain ⟨each⟩ := fares
    obtain ⟨t, did, noted, outcome⟩ := Progress.runLeg_cases plan env leg p ended
    refine ⟨stretches ++ [t], ?_, ?_, ?_⟩
    · rcases outcome with ⟨passed, going⟩ | ⟨stage, cause, stopped, ends⟩
      · rw [going]
        exact .through (List.rel_append each (.cons passed .nil))
      · rw [ends]
        exact .stops legs leg [] stretches t _ _ rfl rfl each stopped
    · rw [did, events, List.flatMap_append, List.flatMap_singleton]
    · rw [noted, points, measured_concat env each]

theorem sequence_told (plan : Plan α) (env : Environment σ α) (s : σ) :
    ∃ stretches, (sequence plan env.observed ⟨s, []⟩).Told env plan.legs stretches := by
  have all (legs done : List (Leg α)) (stretches : List (Stretch σ)) (p : Progress (Observed σ) α)
      (told : p.Told env done stretches) :
      ∃ more, (legs.foldl (Progress.runLeg plan env.observed) p).Told env (done ++ legs) more := by
    induction legs generalizing done stretches p with
    | nil =>
      rw [List.append_nil]
      exact ⟨stretches, told⟩
    | cons leg rest ih =>
      obtain ⟨more, next⟩ := told.runLeg plan leg
      have parted : done ++ leg :: rest = done ++ [leg] ++ rest := by simp
      rw [List.foldl_cons, parted]
      exact ih _ more _ next
  rw [sequence_eq_legs]
  exact all plan.legs [] [] _ ⟨.through .nil, rfl, rfl⟩

end Calorimetry.Calibration
