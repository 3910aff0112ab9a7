import Calorimetry.Proofs.Calibration.Accounting
import Calorimetry.Proofs.Calibration.Commands
import Mathlib.Algebra.Order.Floor.Div

/-! How long waiting takes. A wait sleeps in slices, none of them longer than the interval at which cancellation
is looked for, nor than what is left. On a clock that sleeps no shorter than it is told, each slice but the last
takes a whole interval off what is left. On one that sleeps just as long as it is told, a wait ends when its
time is over, and a run without errors takes the time of all its phases. -/

namespace Calorimetry.Calibration
variable {σ α : Type} [Scalar α]

def Plan.nap (plan : Plan α) (left : Nat) : Nat := min left plan.settings.poll

/-- Waiting for the time `goal`, from a state on, sleeps through the slices and comes to a result. -/
inductive Waits (plan : Plan α) (env : Environment σ α) (goal : Nat) :
    σ → List (Duration × σ) → Bool × σ → Prop
  | cancelled (s : σ) (set : env.cancelled s = true) : Waits plan env goal s [] (true, s)
  | reached (s : σ) (going : env.cancelled s = false) (late : goal ≤ env.now s) :
      Waits plan env goal s [] (false, s)
  | slice (s : σ) (going : env.cancelled s = false) (early : env.now s < goal)
      {slices : List (Duration × σ)} {result : Bool × σ}
      (rest : Waits plan env goal (env.sleep (plan.nap (goal - env.now s)) s) slices result) :
      Waits plan env goal s
        ((plan.nap (goal - env.now s), env.sleep (plan.nap (goal - env.now s)) s) :: slices) result

private theorem waitUntil_waits (plan : Plan α) (env : Environment σ α) {start : Nat} (d : Nat) (o : Observed σ)
    (begun : start ≤ env.now o.state) :
    let waited := waitUntil plan env.observed start d o
    ∃ slices, waited.2.events = o.events ++ slices.map Event.ofSlice ∧
      Waits plan env (start + d) o.state slices (waited.1, waited.2.state) := by
  induction o using waitUntil.induct plan env.observed start d with
  | case1 o set =>
    rw [waitUntil, if_pos set]
    exact ⟨[], (List.append_nil _).symm, .cancelled _ set⟩
  | case2 o going late =>
    have late' : d ≤ env.now o.state - start := late
    rw [waitUntil, if_neg going, if_pos late]
    exact ⟨[], (List.append_nil _).symm, .reached o.state (Bool.eq_false_iff.mpr going) (by omega)⟩
  | case3 o going early slice ih =>
    have early' : ¬ d ≤ env.now o.state - start := early
    have short : env.now o.state < start + d := by omega
    have left : d - (env.now o.state - start) = start + d - env.now o.state := by omega
    have nap : slice = plan.nap (start + d - env.now o.state) := by
      rw [Plan.nap, ← left]
      rfl
    have positive : 0 < slice :=
      Nat.lt_min.mpr ⟨Nat.sub_pos_of_lt (Nat.lt_of_not_le early), plan.poll_pos⟩
    have later := env.now_lt_sleep slice o.state positive
    obtain ⟨slices, events, rest⟩ := ih (Nat.le_trans begun (Nat.le_of_lt later))
    have step : waitUntil plan env.observed start d o =
        waitUntil plan env.observed start d (env.observed.sleep slice o) := by
      rw [waitUntil, if_neg going, if_neg early]
    rw [step]
    refine ⟨(slice, env.sleep slice o.state) :: slices, ?_, ?_⟩
    · refine events.trans ?_
      rw [List.map_cons, ← List.singleton_append, ← List.append_assoc]
      rfl
    · rw [nap] at rest ⊢
      exact .slice o.state (Bool.eq_false_iff.mpr going) short rest

private theorem Plan.ceilDiv_nap (plan : Plan α) {left : Nat} (positive : 0 < left) :
    (left - plan.nap left) ⌈/⌉ plan.settings.poll + 1 = left ⌈/⌉ plan.settings.poll := by
  have poll := plan.poll_pos
  rw [nap, Nat.ceilDiv_eq_add_pred_div, Nat.ceilDiv_eq_add_pred_div]
  rcases Nat.le_total left plan.settings.poll with last | more
  · rw [Nat.min_eq_left last, Nat.sub_self, Nat.zero_add, Nat.div_eq_of_lt (by omega)]
    exact (Nat.div_eq_of_lt_le (by omega) (by omega)).symm
  · rw [Nat.min_eq_right more, ← Nat.add_div_right _ poll]
    congr 1
    omega

namespace Waits
variable {plan : Plan α} {env : Environment σ α} {goal : Nat} {s : σ} {slices : List (Duration × σ)}
  {result : Bool × σ}

private theorem flag (waits : Waits plan env goal s slices result) : result.1 = env.cancelled result.2 := by
  induction waits with
  | cancelled s set => exact set.symm
  | reached s going => exact going.symm
  | slice s going early rest ih => exact ih

private theorem brief (waits : Waits plan env goal s slices result) :
    ∀ slice ∈ slices, slice.1 ≤ plan.settings.poll := by
  induction waits with
  | cancelled s set => simp
  | reached s going late => simp
  | slice s going early rest ih => exact List.forall_mem_cons.mpr ⟨Nat.min_le_right _ _, ih⟩

private theorem goal_le (waits : Waits plan env goal s slices result) (going : result.1 = false) :
    goal ≤ env.now result.2 := by
  induction waits with
  | cancelled s set => contradiction
  | reached s _ late => exact late
  | slice s _ early rest ih => exact ih going

private theorem length_le (waits : Waits plan env goal s slices result)
    (lasting : ∀ d s, env.now s + d ≤ env.now (env.sleep d s)) :
    slices.length ≤ (goal - env.now s) ⌈/⌉ plan.settings.poll := by
  induction waits with
  | cancelled s set => exact Nat.zero_le _
  | reached s going late => exact Nat.zero_le _
  | slice s going early rest ih =>
    have slept := lasting (plan.nap (goal - env.now s)) s
    have less := (gc_smul_ceilDiv plan.poll_pos).monotone_l
      (show goal - env.now (env.sleep (plan.nap (goal - env.now s)) s) ≤
        goal - env.now s - plan.nap (goal - env.now s) by omega)
    rw [← plan.ceilDiv_nap (Nat.sub_pos_of_lt early)]
    exact Nat.succ_le_succ (ih.trans less)

private theorem length_eq (waits : Waits plan env goal s slices result) (going : result.1 = false)
    (exact : ∀ d s, env.now (env.sleep d s) = env.now s + d) :
    slices.length = (goal - env.now s) ⌈/⌉ plan.settings.poll := by
  induction waits with
  | cancelled s set => contradiction
  | reached s _ late => rw [Nat.sub_eq_zero_of_le late, zero_ceilDiv, List.length_nil]
  | slice s _ early rest ih =>
    rw [List.length_cons, ih going, exact, ← plan.ceilDiv_nap (Nat.sub_pos_of_lt early),
      Nat.sub_add_eq]

private theorem now_eq (waits : Waits plan env goal s slices result) (going : result.1 = false)
    (exact : ∀ d s, env.now (env.sleep d s) = env.now s + d) (before : env.now s ≤ goal) :
    env.now result.2 = goal := by
  induction waits with
  | cancelled s set => contradiction
  | reached s _ late => exact Nat.le_antisymm before late
  | slice s _ early rest ih =>
    apply ih going
    have few : plan.nap (goal - env.now s) ≤ goal - env.now s := Nat.min_le_left _ _
    rw [exact]
    omega

end Waits

private theorem waitUntil_of_now (plan : Plan α) (env : Environment σ α) (d : Nat) (s : σ) :
    ∃ slices, Waits plan env (env.now s + d) s slices (waitUntil plan env (env.now s) d s) := by
  obtain ⟨slices, _, waits⟩ := waitUntil_waits plan env d ⟨s, []⟩ (Nat.le_refl _)
  exact ⟨slices, waitUntil_view env.observed_views plan (env.now s) d ⟨s, []⟩ ▸ waits⟩

/-! ## A run on an exact clock -/

/-- If nothing has stopped the run up to `q`, then nothing has up to `p`, and from there on `d` has passed. -/
def Progress.Takes (env : Environment σ α) (d : Nat) (p q : Progress σ α) : Prop :=
  q.stopped = none → p.stopped = none ∧ env.now q.state = env.now p.state + d

namespace Progress
variable {env : Environment σ α} {p q r : Progress σ α}

omit [Scalar α] in
private theorem Takes.trans {d e : Nat} (first : Takes env d p q) (second : Takes env e q r) :
    Takes env (d + e) p r := by
  intro going
  obtain ⟨going, later⟩ := second going
  obtain ⟨going, earlier⟩ := first going
  exact ⟨going, by rw [later, earlier, Nat.add_assoc]⟩

omit [Scalar α] in
private theorem takes_unlessStopped {f : Progress σ α → Progress σ α} {d : Nat}
    (step : p.stopped = none → Takes env d p (f p)) : Takes env d p (p.unlessStopped f) := by
  intro going
  cases stopped : p.stopped with
  | none =>
    rw [unlessStopped_of_going f stopped] at going ⊢
    exact ⟨rfl, (step stopped going).2⟩
  | some reason =>
    rw [unlessStopped_of_stopped f stopped, stopped] at going
    contradiction

omit [Scalar α] in
private theorem switch_takes (still : ∀ h s, env.now (env.command h s).2 = env.now s) (stage : Stage)
    (h : Heaters) : Takes env 0 p (p.switch env stage h) := by
  refine takes_unlessStopped fun none => ?_
  have same := still h p.state
  rcases answered : env.command h p.state with ⟨e | ⟨⟩, after⟩
  · exact fun going => absurd going (Option.some_ne_none _)
  · rw [answered] at same
    exact fun _ => ⟨none, same⟩

variable (plan : Plan α) (exact : ∀ d s, env.now (env.sleep d s) = env.now s + d)
include exact

private theorem wait_takes (stage : Stage) (d : Duration) : Takes env d p (p.wait plan env stage d) := by
  refine takes_unlessStopped fun none => ?_
  obtain ⟨slices, waits⟩ := waitUntil_of_now plan env d p.state
  rcases waited : waitUntil plan env (env.now p.state) d p.state with ⟨_ | _, after⟩
  · rw [waited] at waits
    exact fun _ => ⟨none, waits.now_eq rfl exact (Nat.le_add_right _ _)⟩
  · exact fun going => absurd going (Option.some_ne_none _)

private theorem measure_takes (stage : Stage) (d : Duration) (power : α) :
    Takes env d p (p.measure plan env stage d power) := by
  refine takes_unlessStopped fun _ => (wait_takes plan exact stage d).trans (e := 0) ?_
  exact takes_unlessStopped fun none _ => ⟨none, rfl⟩

variable (still : ∀ h s, env.now (env.command h s).2 = env.now s)
include still

private theorem runLeg_takes (leg : Leg α) : Takes env leg.duration p (p.runLeg plan env leg) := by
  rw [← Nat.zero_add leg.duration]
  refine (switch_takes still leg.switching leg.command).trans ?_
  rw [runLeg, waitLeg]
  cases leg.power? with
  | some power => exact measure_takes plan exact _ _ power
  | none => exact wait_takes plan exact _ _

private theorem legs_take (legs : List (Leg α)) :
    Takes env (legs.map Leg.duration).sum p (legs.foldl (runLeg plan env) p) := by
  induction legs generalizing p with
  | nil => exact fun going => ⟨going, rfl⟩
  | cons leg rest ih => exact (runLeg_takes plan exact still leg).trans ih

end Progress

private theorem Plan.sum_durations (plan : Plan α) : (plan.legs.map Leg.duration).sum = plan.settings.baseline +
    plan.settings.order.length * (plan.settings.heater + plan.settings.cooloff) := by
  rw [legs, List.map_cons, List.sum_cons]
  refine congrArg (plan.settings.baseline + ·) ?_
  induction plan.settings.order with
  | nil => exact (Nat.zero_mul _).symm
  | cons n rest ih =>
    rw [List.flatMap_cons, List.map_append, List.sum_append, ih, List.length_cons, Nat.succ_mul,
      Nat.add_comm]
    rfl

private theorem run_takes {plan : Plan α} {env : Environment σ α}
    (exact : ∀ d s, env.now (env.sleep d s) = env.now s + d)
    (still : ∀ h s, env.now (env.command h s).2 = env.now s) {s : σ} {table : Table α}
    (made : (run plan env s).1 = .ok table) :
    env.now (run plan env s).2 = env.now s + (plan.legs.map Leg.duration).sum := by
  have going : (sequence plan env s).stopped = none := by
    rw [run] at made
    cases stopped : (sequence plan env s).stopped with
    | none => rfl
    | some reason => simp [stopped] at made
  rw [run_state, still]
  rw [sequence_eq_legs] at going ⊢
  exact (Progress.legs_take plan exact still plan.legs going).2

/-- On a clock that sleeps no shorter than it is told, a wait sleeps at most as often as intervals are needed
to fill its time, for one interval at most each time, and unless it is cancelled its time has passed at the end.
On a clock that sleeps as long as it is told it sleeps just as often, and no longer. A run that makes a table
then takes the baseline and, for each heater, a heating and a cooloff, if commands take no time. -/
theorem waits_are_exact (plan : Plan α) (env : Environment σ α)
    (lasting : ∀ d s, env.now s + d ≤ env.now (env.sleep d s)) :
    (∀ (d : Duration) (s : σ), ∃ (cancelled : Bool) (after : σ) (slices : List (Duration × σ)),
      waitUntil plan env (env.now s) d s = (cancelled, after) ∧
      waitUntil plan env.observed (env.now s) d ⟨s, []⟩ = (cancelled, ⟨after, slices.map Event.ofSlice⟩) ∧
      cancelled = env.cancelled after ∧
      slices.length ≤ d ⌈/⌉ plan.settings.poll ∧
      (∀ slice ∈ slices, slice.1 ≤ plan.settings.poll) ∧
      (cancelled = false → env.now s + d ≤ env.now after) ∧
      ((∀ d s, env.now (env.sleep d s) = env.now s + d) → cancelled = false →
        slices.length = d ⌈/⌉ plan.settings.poll ∧ env.now after = env.now s + d)) ∧
    ((∀ d s, env.now (env.sleep d s) = env.now s + d) →
      (∀ h s, env.now (env.command h s).2 = env.now s) →
      ∀ s table, (run plan env s).1 = .ok table →
        env.now (run plan env s).2 = env.now s + plan.settings.baseline +
          plan.settings.order.length * (plan.settings.heater + plan.settings.cooloff)) := by
  refine ⟨?_, ?_⟩
  · intro d s
    obtain ⟨slices, events, waits⟩ := waitUntil_waits plan env d ⟨s, []⟩ (Nat.le_refl (env.now s))
    have same := waitUntil_view env.observed_views plan (env.now s) d ⟨s, []⟩
    rcases waited : waitUntil plan env.observed (env.now s) d ⟨s, []⟩ with ⟨cancelled, after, told⟩
    rw [waited] at events waits same
    obtain rfl : told = slices.map Event.ofSlice := events
    have left : env.now s + d - env.now s = d := Nat.add_sub_cancel_left ..
    refine ⟨cancelled, after, slices, same, rfl, waits.flag, ?_, waits.brief, waits.goal_le, ?_⟩
    · exact left ▸ waits.length_le lasting
    · intro exact going
      exact ⟨left ▸ waits.length_eq going exact, waits.now_eq going exact (Nat.le_add_right _ _)⟩
  · intro exact still s table made
    rw [run_takes exact still made, plan.sum_durations, Nat.add_assoc]

namespace Drill

/-- Cancellation is looked for every three nanoseconds, and never asked for. -/
def patient : Plan Float where
  settings := { plan.settings with poll := 3 }
  sound := by decide

def undisturbed : Environment Nat Float :=
  { environment (fun _ => false) 0 none with cancelled := fun _ => false }

private theorem carried_through :
    ∃ table, (run plan (environment (fun _ => false) 9 (some 0.5)) 0).1 = .ok table := by
  have sorted : Table.sorted [⟨0, 0⟩, ⟨0.5, plan.power 1⟩, ⟨0.5, plan.power 2⟩] =
      [⟨0, 0⟩, ⟨0.5, plan.power 1⟩, ⟨0.5, plan.power 2⟩] :=
    List.mergeSort_of_pairwise (by decide)
  let table : Table Float := ⟨[⟨0, 0⟩, ⟨0.5, plan.power 1⟩, ⟨0.5, plan.power 2⟩], by decide⟩
  have made : Table.ofPoints (Table.sorted [⟨0, 0⟩, ⟨0.5, plan.power 1⟩, ⟨0.5, plan.power 2⟩]) =
      .ok table := by
    rw [sorted]
    exact Table.ofPoints_points table
  have order : plan.settings.order = [1, 2] := rfl
  have baseline : plan.settings.baseline = 1 := rfl
  have heater : plan.settings.heater = 1 := rfl
  have cooloff : plan.settings.cooloff = 1 := rfl
  rw [run_observed, run, sequence, order, baseline]
  simp (disch := decide) only [List.foldl, Progress.runHeater, heater, cooloff, switch, measure,
    wait, Nat.reduceAdd, Nat.reduceLeDiff, reduceIte, Bool.false_eq_true, one_ne_zero,
    OfNat.ofNat_ne_zero, Option.getD_none, Option.getD_some, List.nil_append, List.cons_append]
  generalize answered : Table.ofPoints (_ : List (Point Float)) = answer
  obtain rfl : .ok table = answer := made.symm.trans answered
  exact ⟨table, rfl⟩

end Drill

theorem waits_are_exact_drill :
    let env := Drill.environment (fun _ => false) 9 (some 0.5)
    (∀ d s, env.now (env.sleep d s) = env.now s + d) ∧
      (∀ h s, env.now (env.command h s).2 = env.now s) ∧
      (∃ slices : List (Duration × Nat),
        waitUntil Drill.patient Drill.undisturbed.observed 0 7 ⟨0, []⟩ =
          (false, ⟨7, slices.map Event.ofSlice⟩) ∧ slices.length = 3 ∧ ∀ slice ∈ slices, slice.1 ≤ 3) ∧
      ∃ table, (run Drill.plan env 0).1 = .ok table ∧ (run Drill.plan env 0).2 = 5 := by
  intro env
  have exact : ∀ d s, env.now (env.sleep d s) = env.now s + d := fun _ _ => rfl
  have still : ∀ h s, env.now (env.command h s).2 = env.now s := fun _ _ => rfl
  refine ⟨exact, still, ?_, ?_⟩
  · obtain ⟨cancelled, after, slices, _, waited, flag, _, brief, _, all⟩ :=
      (waits_are_exact Drill.patient Drill.undisturbed fun _ _ => Nat.le_refl _).1 7 0
    obtain ⟨count, ended⟩ := all (fun _ _ => rfl) flag
    obtain rfl : after = 7 := ended
    rw [flag] at waited
    exact ⟨slices, waited, count, brief⟩
  · obtain ⟨table, made⟩ := Drill.carried_through
    have timed := (waits_are_exact Drill.plan env fun d s => (exact d s).ge).2 exact still 0 table made
    exact ⟨table, made, timed⟩

end Calorimetry.Calibration
