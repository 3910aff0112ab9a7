import Calorimetry.Proofs.Calibration.Accounting
import Calorimetry.Workbench

/-! Which pulses stand behind a calibration table. A phase without a pulse is entered with slope 0,
and nothing but the order of the points can tell such a point from a measured one. So a table is
refused exactly if a point is not finite or two points are out of step, and a heater whose pulse is
missing goes unnoticed as long as no weaker one has a positive slope and no stronger one a negative
one. -/

namespace Calorimetry.Calibration
variable {σ α : Type} [Scalar α]

/-- What is asked of the environment about samples and pulses is answered by a meter. -/
structure Environment.Reads (env : Environment σ α) (meter : σ → Meter α) : Prop where
  latestTime? : ∀ s, env.latestTime? s = (meter s).latestTime?
  slopeSince? : ∀ since s, env.slopeSince? since s = (meter s).slopeSince? since

variable [Scalar.Ordered α]

section
variable {env : Environment σ α} {s after : σ} {plan : Plan α} {d : Duration}

omit [Scalar α] [Scalar.Ordered α] in
private theorem Environment.observed_accepts {h : Heaters} (accepted : env.command h s = (.ok (), after))
    (events : List (Event σ)) :
    env.observed.command h ⟨s, events⟩ =
      (.ok (), ⟨after, events ++ [.commanded h (.ok ()) after]⟩) := by
  simp only [observed, accepted]

/-- A wait that is over after one slice. -/
structure Slice (plan : Plan α) (env : Environment σ α) (d : Duration) (s after : σ) : Prop where
  slept : env.sleep d s = after
  positive : 0 < d
  short : d ≤ plan.settings.poll
  going : env.cancelled s = false
  quiet : env.cancelled after = false
  whole : d ≤ env.now after - env.now s

omit [Scalar.Ordered α] in
private theorem Slice.waited (slice : Slice plan env d s after) (events : List (Event σ)) :
    waitUntil plan env.observed (env.observed.now ⟨s, events⟩) d ⟨s, events⟩ =
      (false, ⟨after, events ++ [.slept d after]⟩) := by
  have begun : ¬ d = 0 := Nat.pos_iff_ne_zero.mp slice.positive
  have one : min d plan.settings.poll = d := Nat.min_eq_left slice.short
  rw [waitUntil, waitUntil]
  simp [Environment.observed, slice.going, begun, one, slice.slept, slice.quiet, slice.whole]

end

namespace Silent

def plan : Plan Float where
  settings := {
    baseline := Duration.ofSeconds 1, heater := Duration.ofSeconds 2
    cooloff := Duration.ofSeconds 1, poll := Duration.ofSeconds 2, order := [1] }
  sound := by decide

/-- A head that never delivers a sample. -/
def bench : Workbench Float where
  source := { inner := SimulatedHead.start { maxSamples := some 0 } }
  session := { meter := Meter.start {} Table.empty }

def meter (w : Workbench Float) : Meter Float := w.session.meter

def started : Workbench Float := (Workbench.command Heaters.off bench).2
def rested : Workbench Float := started.sleep (Duration.ofSeconds 1)
def heating : Workbench Float := (Workbench.command (Heaters.only 1) rested).2
def heated : Workbench Float := heating.sleep (Duration.ofSeconds 2)
def cooling : Workbench Float := (Workbench.command Heaters.off heated).2
def cooled : Workbench Float := cooling.sleep (Duration.ofSeconds 1)

def stretches : List (Stretch (Workbench Float)) := [
  ⟨Heaters.off, .ok (), started, [(Duration.ofSeconds 1, rested)]⟩,
  ⟨Heaters.only 1, .ok (), heating, [(Duration.ofSeconds 2, heated)]⟩,
  ⟨Heaters.off, .ok (), cooling, [(Duration.ofSeconds 1, cooled)]⟩]

private theorem sequence_silent : sequence plan Workbench.environment.observed ⟨bench, []⟩ =
    ⟨⟨cooled, stretches.flatMap Stretch.events⟩, [⟨0, 0⟩, ⟨0, plan.power 1⟩], none⟩ := by
  have starts : Workbench.environment.command Heaters.off bench = (.ok (), started) := rfl
  have rests : Slice plan Workbench.environment plan.settings.baseline started rested :=
    ⟨rfl, by decide, by decide, rfl, rfl, by decide⟩
  have switches : Workbench.environment.command (Heaters.only 1) rested = (.ok (), heating) := rfl
  have heats : Slice plan Workbench.environment plan.settings.heater heating heated :=
    ⟨rfl, by decide, by decide, rfl, rfl, by decide⟩
  have turns : Workbench.environment.command Heaters.off heated = (.ok (), cooling) := rfl
  have cools : Slice plan Workbench.environment plan.settings.cooloff cooling cooled :=
    ⟨rfl, by decide, by decide, rfl, rfl, by decide⟩
  have order : plan.settings.order = [1] := rfl
  rw [sequence, order, List.foldl_cons, List.foldl_nil, Progress.runHeater,
    Progress.switch_of_ok (Environment.observed_accepts starts _),
    Progress.measure_of_whole (rests.waited _),
    Progress.switch_of_ok (Environment.observed_accepts switches _),
    Progress.measure_of_whole (heats.waited _),
    Progress.switch_of_ok (Environment.observed_accepts turns _),
    Progress.wait_of_whole (cools.waited _)]
  rfl

private theorem sorted : Table.sorted [⟨0, 0⟩, ⟨0, plan.power 1⟩] = [⟨0, 0⟩, ⟨0, plan.power 1⟩] :=
  List.mergeSort_of_pairwise (by decide)

private theorem sound : Point.fault? [⟨0, 0⟩, ⟨0, plan.power 1⟩] = none := by decide

private theorem made : ∃ table, (run plan Workbench.environment.observed ⟨bench, []⟩).1 = .ok table := by
  obtain ⟨table, made⟩ := (Table.exists_ofPoints_iff _).mpr sound
  refine ⟨table, ?_⟩
  rw [run, sequence_silent]
  dsimp only
  rw [sorted, made]

end Silent

/-! ## Tables and pulses -/

end Calorimetry.Calibration
