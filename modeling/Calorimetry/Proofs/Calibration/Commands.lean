import Calorimetry.Proofs.Calibration.Trace
import Mathlib.Data.List.Chain

/-! The commands that a calibration run gives to the heater bank. Wherever the run stops, it has
given the beginning of a fixed schedule, and then it switches everything off. -/

namespace Calorimetry
variable {σ α : Type} [Scalar α]

private theorem Heaters.only_count (n : Nat) : (Heaters.only n).toList.count true ≤ 1 := by
  match n with
  | 0 => decide
  | 1 => decide
  | 2 => decide
  | 3 => decide
  | n + 4 => simp [only, PerHeater.toList]

namespace Calibration

/-- The commands of a run that nothing stops, without the last one. -/
def Plan.schedule (plan : Plan α) : List Heaters :=
  Heaters.off :: plan.settings.order.flatMap fun n => [Heaters.only n, Heaters.off]

omit [Scalar α] in
private theorem Environment.observed_command (env : Environment σ α) (h : Heaters) (o : Observed σ) :
    (env.observed.command h o).2.commands = o.commands ++ [h] := by
  simp [Observed.commands, observed, Event.command?]

omit [Scalar α] in
private theorem Environment.observed_sleep (env : Environment σ α) (d : Duration) (o : Observed σ) :
    (env.observed.sleep d o).commands = o.commands := by
  simp [Observed.commands, observed, Event.command?]

private theorem waitUntil_commands (plan : Plan α) (env : Environment σ α) (start d : Nat) (o : Observed σ) :
    (waitUntil plan env.observed start d o).2.commands = o.commands := by
  induction o using waitUntil.induct plan env.observed start d with
  | case1 o cancelled => rw [waitUntil, if_pos cancelled]
  | case2 o going done => rw [waitUntil, if_neg going, if_pos done]
  | case3 o going short slice ih =>
    rw [waitUntil, if_neg going, if_neg short]
    exact ih.trans (env.observed_sleep _ o)

namespace Progress
variable {planned : List Heaters} {p : Progress (Observed σ) α}

/-- The commands so far are the beginning of those planned, and all of these unless the run has
stopped. -/
structure OnSchedule (planned : List Heaters) (p : Progress (Observed σ) α) : Prop where
  begun : p.state.commands <+: planned
  complete : p.stopped = none → p.state.commands = planned

omit [Scalar α] in
private theorem onSchedule_of_eq (complete : p.state.commands = planned) : p.OnSchedule planned where
  begun := complete ▸ List.prefix_refl _
  complete _ := complete

omit [Scalar α] in
private theorem OnSchedule.unlessStopped {f : Progress (Observed σ) α → Progress (Observed σ) α}
    (onSchedule : p.OnSchedule planned) {longer : List Heaters} (more : planned <+: longer)
    (step : p.stopped = none → p.state.commands = planned → (f p).OnSchedule longer) :
    (p.unlessStopped f).OnSchedule longer := by
  rw [Progress.unlessStopped]
  cases stopped : p.stopped with
  | none => exact step stopped (onSchedule.complete stopped)
  | some reason =>
    refine ⟨onSchedule.begun.trans more, ?_⟩
    intro going
    have none : p.stopped = none := going
    rw [stopped] at none
    contradiction

omit [Scalar α] in
private theorem OnSchedule.switch (onSchedule : p.OnSchedule planned) (env : Environment σ α)
    (stage : Stage) (h : Heaters) : (p.switch env.observed stage h).OnSchedule (planned ++ [h]) := by
  apply onSchedule.unlessStopped (List.prefix_append _ _)
  intro going complete
  have given := env.observed_command h p.state
  rw [complete] at given
  generalize env.observed.command h p.state = answered at given ⊢
  rcases answered with ⟨e | ⟨⟩, after⟩
  · exact onSchedule_of_eq given
  · exact onSchedule_of_eq given

private theorem OnSchedule.wait (onSchedule : p.OnSchedule planned) (plan : Plan α) (env : Environment σ α)
    (stage : Stage) (d : Duration) : (p.wait plan env.observed stage d).OnSchedule planned := by
  apply onSchedule.unlessStopped (List.prefix_refl _)
  intro going complete
  have quiet := waitUntil_commands plan env (env.observed.now p.state) d p.state
  rw [complete] at quiet
  generalize waitUntil plan env.observed (env.observed.now p.state) d p.state = waited at quiet ⊢
  rcases waited with ⟨_ | _, after⟩
  · exact onSchedule_of_eq quiet
  · exact onSchedule_of_eq quiet

private theorem OnSchedule.measure (onSchedule : p.OnSchedule planned) (plan : Plan α)
    (env : Environment σ α) (stage : Stage) (d : Duration) (power : α) :
    (p.measure plan env.observed stage d power).OnSchedule planned := by
  apply onSchedule.unlessStopped (List.prefix_refl _)
  intro going complete
  apply (onSchedule.wait plan env stage d).unlessStopped (List.prefix_refl _)
  intro _ waited
  exact onSchedule_of_eq waited

private theorem OnSchedule.runHeater (onSchedule : p.OnSchedule planned) (plan : Plan α)
    (env : Environment σ α) (n : Nat) :
    (p.runHeater plan env.observed n).OnSchedule (planned ++ [Heaters.only n, Heaters.off]) := by
  have on := onSchedule.switch env (.heater n) (Heaters.only n)
  have measured := on.measure plan env (.heater n) plan.settings.heater (plan.power n)
  have off := measured.switch env (.heater n) Heaters.off
  rw [List.append_assoc] at off
  exact off.wait plan env _ _

end Progress

private theorem sequence_onSchedule (plan : Plan α) (env : Environment σ α) (s : σ) :
    (sequence plan env.observed ⟨s, []⟩).OnSchedule plan.schedule := by
  have all (order : List Nat) (planned : List Heaters) (p : Progress (Observed σ) α)
      (onSchedule : p.OnSchedule planned) :
      (order.foldl (Progress.runHeater plan env.observed) p).OnSchedule
        (planned ++ order.flatMap fun n => [Heaters.only n, Heaters.off]) := by
    induction order generalizing planned p with
    | nil =>
      rw [List.flatMap_nil, List.append_nil]
      exact onSchedule
    | cons n rest ih =>
      rw [List.flatMap_cons, ← List.append_assoc]
      exact ih _ _ (onSchedule.runHeater plan env n)
  have fresh : Progress.OnSchedule [] (⟨⟨s, []⟩, [], none⟩ : Progress (Observed σ) α) :=
    Progress.onSchedule_of_eq rfl
  have off := fresh.switch env .baseline Heaters.off
  exact all _ _ _ (off.measure plan env .baseline plan.settings.baseline 0)

/-- The last command is the same on every way out. -/
theorem run_state (plan : Plan α) (env : Environment σ α) (s : σ) :
    (run plan env s).2 = (env.command Heaters.off (sequence plan env s).state).2 := by
  rw [run]
  generalize sequence plan env s = p
  dsimp only
  cases p.stopped with
  | some reason => rfl
  | none =>
    dsimp only
    cases Table.ofPoints (Table.sorted p.points) <;> rfl

private theorem Plan.schedule_single (plan : Plan α) : ∀ h ∈ plan.schedule, h.toList.count true ≤ 1 := by
  intro h member
  rcases List.mem_cons.mp member with rfl | later
  · decide
  obtain ⟨n, _, either⟩ := List.mem_flatMap.mp later
  rcases List.mem_cons.mp either with rfl | last
  · exact Heaters.only_count n
  · rw [List.mem_singleton.mp last]
    decide

private theorem Plan.schedule_chain (plan : Plan α) :
    plan.schedule.IsChain fun h next => h.anyOn = true → next = Heaters.off := by
  rw [schedule]
  induction plan.settings.order with
  | nil => exact List.isChain_singleton _
  | cons n rest ih =>
    refine List.isChain_cons_cons.mpr ⟨fun on => absurd on (by decide), ?_⟩
    exact List.isChain_cons_cons.mpr ⟨fun _ => rfl, ih⟩

/-- Whatever the environment does, a run gives the beginning of its schedule and then switches
everything off. So it never asks for two heaters, switches everything off right after each command
that switches one on, and ends with a command that switches everything off. -/
theorem run_commands (plan : Plan α) (env : Environment σ α) (s : σ) :
    let observed := run plan env.observed ⟨s, []⟩
    let commands := observed.2.commands
    run plan env s = (observed.1, observed.2.state) ∧
      (∃ done, done <+: plan.schedule ∧ commands = done ++ [Heaters.off]) ∧
      (∀ h ∈ commands, h.toList.count true ≤ 1) ∧
      (commands.IsChain fun h next => h.anyOn = true → next = Heaters.off) ∧
      commands.getLast? = some Heaters.off := by
  intro observed commands
  have onSchedule := sequence_onSchedule plan env s
  have forced : commands =
      (sequence plan env.observed ⟨s, []⟩).state.commands ++ [Heaters.off] := by
    rw [← env.observed_command, ← run_state]
  refine ⟨run_observed plan env s, ⟨_, onSchedule.begun, forced⟩, ?_, ?_, ?_⟩
  · rw [forced]
    intro h member
    rcases List.mem_append.mp member with given | last
    · exact plan.schedule_single h (onSchedule.begun.subset given)
    · rw [List.mem_singleton.mp last]
      decide
  · obtain ⟨rest, whole⟩ := onSchedule.begun
    have chain := plan.schedule_chain
    rw [← whole] at chain
    rw [forced]
    apply List.isChain_append.mpr
    refine ⟨(List.isChain_append.mp chain).1, List.isChain_singleton _, ?_⟩
    intro h _ next first _
    exact (Option.some.inj first).symm
  · rw [forced, List.getLast?_concat]

end Calibration
end Calorimetry
