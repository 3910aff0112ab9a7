import Calorimetry.Proofs.Calibration.Accounting

/-! Cancellation of a calibration run. The flag is looked at in every state that a sleep or an
accepted command leaves, so at most one event of a run, the last before the heaters are forced off,
can leave a state in which it is set. -/

namespace Calorimetry.Calibration
variable {σ α : Type} [Scalar α]

private theorem Stretch.commands (stretches : List (Stretch σ)) :
    (stretches.flatMap Stretch.events).filterMap Event.command? = stretches.map Stretch.command := by
  have sleeps (slices : List (Duration × σ)) :
      (slices.map Event.ofSlice).filterMap Event.command? = [] := by
    rw [List.filterMap_map, List.filterMap_eq_nil_iff]
    exact fun _ _ => rfl
  induction stretches with
  | nil => rfl
  | cons t rest ih =>
    have first : t.events.filterMap Event.command? = [t.command] := congrArg _ (sleeps t.slices)
    rw [List.flatMap_cons, List.filterMap_append, ih, first]
    rfl

namespace Fares
variable {env : Environment σ α} {legs : List (Leg α)} {stretches : List (Stretch σ)}
  {reason : Option (Stage × Cause)}

omit [Scalar α] in
private theorem quiet (fares : Fares env legs stretches reason) :
    ∀ e ∈ (stretches.flatMap Stretch.events).dropLast,
      e.error? = none ∧ env.cancelled e.after = false := by
  cases reason with
  | none =>
    have calm := fares.through_iff.mp rfl
    intro e member
    exact calm e (List.dropLast_subset _ member)
  | some reason =>
    obtain _ | ⟨done, leg, left, before, t, stage, cause, parted, rfl, each, stopped⟩ := fares
    have calm := (through each).through_iff.mp rfl
    have nonempty : t.events ≠ [] := List.cons_ne_nil _ _
    rw [List.flatMap_append, List.flatMap_singleton, List.dropLast_append_of_ne_nil nonempty]
    refine List.forall_mem_append.mpr ⟨calm, ?_⟩
    cases stopped with
    | refused e _ answer alone =>
      have single : t.events.dropLast = [] := by
        rw [Stretch.events, alone]
        rfl
      rw [single]
      simp
    | cancelled _ accepted early _ =>
      intro e member
      have fine := t.error?_eq_none_iff.mpr accepted e (List.dropLast_subset _ member)
      have left : e.after ∈ t.states.dropLast := by
        rw [← t.events_after, ← List.map_dropLast]
        exact List.mem_map_of_mem member
      exact ⟨fine, early _ left⟩

omit [Scalar α] in
/-- Once the flag is set, at most the event that was under way is left. -/
private theorem flagged (fares : Fares env legs stretches reason) (some : stretches ≠ []) {s : σ}
    {before after : List (Event σ)} (parted : stretches.flatMap Stretch.events = before ++ after)
    (set : env.cancelled ((before.getLast?.map Event.after).getD s) = true)
    (stays : ∀ e ∈ after, env.cancelled e.after = true) :
    ∃ done pending, stretches.flatMap Stretch.events = done ++ [pending] ∧
      env.cancelled pending.after = true ∧
      ((before = done ++ [pending] ∧ after = []) ∨ (before = [] ∧ done = [])) := by
  have quiet := fares.quiet
  rcases List.eq_nil_or_concat' (stretches.flatMap Stretch.events) with empty | ⟨done, pending, whole⟩
  · obtain ⟨t, rest, rfl⟩ := List.exists_cons_of_ne_nil some
    rw [List.flatMap_cons] at empty
    exact absurd (List.append_eq_nil_iff.mp empty).1 (List.cons_ne_nil _ _)
  refine ⟨done, pending, whole, ?_⟩
  rw [whole] at parted quiet
  rw [List.dropLast_concat] at quiet
  have unset (e : Event σ) (member : e ∈ done) (flag : env.cancelled e.after = true) : False := by
    rw [(quiet e member).2] at flag
    contradiction
  rcases List.eq_nil_or_concat' after with rfl | ⟨more, e, rfl⟩
  · rw [List.append_nil] at parted
    rw [← parted, List.getLast?_concat] at set
    exact ⟨set, .inl ⟨parted.symm, rfl⟩⟩
  · rw [← List.append_assoc] at parted
    obtain ⟨rfl, ⟨⟩⟩ := List.append_inj' parted rfl
    have pendingSet := stays pending (by simp)
    have nothing : more = [] := by
      apply List.eq_nil_iff_forall_not_mem.mpr
      intro e member
      exact unset e (by simp [member]) (stays e (by simp [member]))
    have first : before = [] := by
      rcases List.eq_nil_or_concat' before with empty | ⟨front, e, rfl⟩
      · exact empty
      · rw [List.getLast?_concat] at set
        exact (unset e (by simp) set).elim
    exact ⟨pendingSet, .inr ⟨first, by rw [first, nothing]; rfl⟩⟩

omit [Scalar α] in
private theorem last_leg {stage : Stage} {cause : Cause}
    (fares : Fares env legs stretches (some (stage, cause))) {done : List (Event σ)}
    {pending : Event σ} (whole : stretches.flatMap Stretch.events = done ++ [pending]) :
    ∃ leg, legs[((done ++ [pending]).filterMap Event.command?).length - 1]? = some leg ∧
      (∀ e, pending.error? = some e → stage = leg.switching ∧ cause = .device (.ofHardware e)) ∧
      (pending.error? = none → stage = leg.waiting ∧ cause = .cancelled) := by
  rw [← whole, Stretch.commands]
  obtain _ | ⟨before, leg, left, stretches, t, _, _, rfl, rfl, each, stopped⟩ := fares
  obtain ⟨last, latest, why⟩ := stopped.last
  have same : last = pending := by
    have ends := congrArg List.getLast? whole
    rw [List.flatMap_append, List.flatMap_singleton, List.getLast?_append, latest,
      List.getLast?_concat] at ends
    exact Option.some.inj ends
  subst same
  refine ⟨leg, ?_, ?_, ?_⟩
  · rw [List.length_map, List.length_append, ← each.length_eq]
    simp
  · intro e refused
    rcases why with ⟨e', refused', switching, device⟩ | ⟨accepted, _⟩
    · rw [refused] at refused'
      obtain ⟨⟩ := refused'
      exact ⟨switching, device⟩
    · rw [refused] at accepted
      contradiction
  · intro accepted
    rcases why with ⟨e, refused, _⟩ | ⟨_, _, waiting, cancelled⟩
    · rw [refused] at accepted
      contradiction
    · exact ⟨waiting, cancelled⟩

private theorem opening {plan : Plan α} {stage : Stage} {cause : Cause}
    (fares : Fares env plan.legs stretches (some (stage, cause))) {pending : Event σ}
    (whole : stretches.flatMap Stretch.events = [pending]) :
    pending.command? = some Heaters.off ∧ measured env plan.legs stretches = [] := by
  have given := Stretch.commands stretches
  have begun := fares.commands
  rw [whole] at given
  rw [← given] at begun
  obtain _ | ⟨done, leg, left, before, t, _, _, parted, rfl, each, stopped⟩ := fares
  rw [List.map_append] at given
  cases command : pending.command? with
  | none => simp [command] at given
  | some h =>
    have first : before = [] := by
      have count := congrArg List.length given
      simp [command] at count
      exact count
    subst first
    obtain ⟨⟩ := each
    obtain ⟨rest, legs⟩ := begun
    simp [command, Plan.legs, Plan.restingLeg] at legs
    refine ⟨congrArg some legs.1, ?_⟩
    rw [parted, measured_stopped .nil left stopped]
    rfl

end Fares

/-- How a run ends with `a` in which the flag is set after `before`, and which only did `after` then.
The event that was under way is followed by the forced command alone; it belongs to `leg`. -/
structure Interrupted (plan : Plan α) (before after done : List (Event σ)) (pending forced : Event σ)
    (leg : Leg α) (a : Aborted α) : Prop where
  whole : before ++ after = done ++ [pending, forced]
  underWay : before = done ++ [pending] ∨ before = [] ∧ done = []
  off : ∀ e ∈ after, e.command? = some Heaters.off
  lastLeg : plan.legs[((done ++ [pending]).filterMap Event.command?).length - 1]? = some leg
  refused : ∀ e, pending.error? = some e → a.stage = leg.switching ∧ a.cause = .device (.ofHardware e)
  accepted : pending.error? = none → a.stage = leg.waiting ∧ a.cause = .cancelled
  opening : before = [] → a.collected = []

private theorem run_interrupted (plan : Plan α) (env : Environment σ α) (s : σ)
    (before after : List (Event σ))
    (parted : (run plan env.observed ⟨s, []⟩).2.events = before ++ after) (unforced : after ≠ [])
    (set : env.cancelled ((before.getLast?.map Event.after).getD s) = true)
    (stays : ∀ e ∈ after, env.cancelled e.after = true) :
    ∃ a done pending forced leg, (run plan env s).1 = .error a ∧
      Interrupted plan before after done pending forced leg a := by
  obtain ⟨stretches, answer, final, ended, events⟩ := run_ended plan env s
  obtain ⟨reason, fares⟩ := ended.fares
  have some : stretches ≠ [] := by
    rintro rfl
    cases fares with
    | through each => exact absurd each.length_eq (by simp [Plan.legs])
    | stops _ _ _ _ _ _ _ _ empty => simp at empty
  obtain ⟨more, forced, rfl⟩ := (List.eq_nil_or_concat' after).resolve_left unforced
  rw [events, ← List.append_assoc] at parted
  obtain ⟨whole, ⟨⟩⟩ := List.append_inj' parted rfl
  obtain ⟨done, pending, last, flag, under⟩ := fares.flagged some whole set fun e member =>
    stays e (List.mem_append_left _ member)
  rw [run_observed]
  generalize (run plan env.observed ⟨s, []⟩).1 = result at ended
  have interrupted (through : Fares env plan.legs stretches none) : False := by
    have calm := (through.through_iff.mp rfl pending (by simp [last])).2
    rw [calm] at flag
    contradiction
  cases ended with
  | tabled table through => exact (interrupted through).elim
  | untabled e through => exact (interrupted through).elim
  | stopped stage cause fares =>
    obtain ⟨leg, under_way, refused, accepted⟩ := fares.last_leg last
    refine ⟨_, done, pending, .commanded Heaters.off answer final, leg, rfl,
      ⟨?_, ?_, ?_, under_way, refused, accepted, ?_⟩⟩
    · rw [← List.append_assoc, ← whole, last]
      simp
    · rcases under with ⟨same, _⟩ | first
      · exact .inl same
      · exact .inr first
    · intro e member
      rcases List.mem_append.mp member with early | forced
      · rcases under with ⟨_, rfl⟩ | ⟨rfl, rfl⟩
        · simp at early
        · rw [last] at whole
          have alone : more = [pending] := whole.symm
          rw [alone] at early
          rw [List.mem_singleton.mp early]
          exact (fares.opening last).1
      · rw [List.mem_singleton.mp forced]
        rfl
    · rintro rfl
      have first : done = [] := by
        rcases under with ⟨impossible, _⟩ | ⟨_, first⟩
        · simp at impossible
        · exact first
      rw [first] at last
      rw [(fares.opening last).2]
      simp [Table.sorted]

/-- Whichever event of a run sets the flag, nothing is done afterwards but to switch everything off,
once at the end and once before that if the flag was set from the beginning. As long as it stays set
no other run has a point. -/
theorem run_cancelled (plan : Plan α) (env : Environment σ α) (s : σ)
    (before after : List (Event σ))
    (parted : (run plan env.observed ⟨s, []⟩).2.events = before ++ after) (unforced : after ≠ [])
    (set : env.cancelled ((before.getLast?.map Event.after).getD s) = true)
    (stays : ∀ e ∈ after, env.cancelled e.after = true) :
    (∃ a done pending forced leg, (run plan env s).1 = .error a ∧
      Interrupted plan before after done pending forced leg a) ∧
    ∀ t, env.cancelled t = true →
      (∀ e ∈ (run plan env.observed ⟨t, []⟩).2.events, env.cancelled e.after = true) →
      ∃ a, (run plan env t).1 = .error a ∧ a.collected = [] := by
  refine ⟨run_interrupted plan env s before after parted unforced set stays, ?_⟩
  intro t set stays
  have some : (run plan env.observed ⟨t, []⟩).2.events ≠ [] := by
    obtain ⟨stretches, answer, final, _, events⟩ := run_ended plan env t
    rw [events]
    simp
  obtain ⟨a, _, _, _, _, failed, interrupted⟩ := run_interrupted plan env t [] _ rfl some set stays
  exact ⟨a, failed, interrupted.opening rfl⟩

namespace Drill

/-- The flag is set while the first heater is on. -/
def alarmed : Environment Nat Float := environment (fun _ => false) 2 (some 0.5)

def heating : List (Event Nat) :=
  [.commanded Heaters.off (.ok ()) 0, .slept 1 1, .commanded (Heaters.only 1) (.ok ()) 1, .slept 1 2]

private theorem alarmed_events : (run plan alarmed.observed ⟨0, []⟩).2.events =
    heating ++ [.commanded Heaters.off (.ok ()) 2] := by
  have order : plan.settings.order = [1, 2] := rfl
  have baseline : plan.settings.baseline = 1 := rfl
  have heater : plan.settings.heater = 1 := rfl
  rw [run_state, alarmed, sequence, order, baseline]
  simp (disch := decide) only [List.foldl, Progress.runHeater, heater, switch, measure,
    Nat.reduceAdd, Nat.reduceLeDiff, reduceIte, Bool.false_eq_true]
  simp [Progress.measure, Progress.wait, Progress.switch, Progress.unlessStopped]
  rfl

end Drill

theorem run_cancelled_while_heating :
    let after : List (Event Nat) := [.commanded Heaters.off (.ok ()) 2]
    (run Drill.plan Drill.alarmed.observed ⟨0, []⟩).2.events = Drill.heating ++ after ∧ after ≠ [] ∧
      Drill.alarmed.cancelled ((Drill.heating.getLast?.map Event.after).getD 0) = true ∧
      (∀ e ∈ after, Drill.alarmed.cancelled e.after = true) ∧
      ∃ a done pending forced leg, (run Drill.plan Drill.alarmed 0).1 = .error a ∧
        Interrupted Drill.plan Drill.heating after done pending forced leg a := by
  intro after
  have unforced : after ≠ [] := List.cons_ne_nil _ _
  have set : Drill.alarmed.cancelled ((Drill.heating.getLast?.map Event.after).getD 0) = true := rfl
  have stays : ∀ e ∈ after, Drill.alarmed.cancelled e.after = true := List.forall_mem_singleton.mpr rfl
  have interrupted := run_cancelled Drill.plan Drill.alarmed 0 Drill.heating after
    Drill.alarmed_events unforced set stays
  exact ⟨Drill.alarmed_events, unforced, set, stays, interrupted.1⟩

end Calorimetry.Calibration
