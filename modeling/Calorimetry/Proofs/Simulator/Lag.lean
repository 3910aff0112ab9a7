import Mathlib.Analysis.Convex.Segment
import Mathlib.Algebra.Order.BigOperators.Group.List
import Calorimetry.Proofs.Scalar.Real
import Calorimetry.Proofs.Simulator.Pacing

/-! The lag of the simulated head, in exact arithmetic and without noise. Each reading covers a fixed share of
the way from the one before it to the target at its sample. The share is at least none and at most all of the
way, so the readings stay in every interval that holds the first temperature and the targets, and as long as the
target is the same, what is left of the way shrinks by the same factor at every sample. -/

namespace Calorimetry

namespace SimulatorSettings
variable {c : SimulatorSettings ℝ} {x : ℝ} {run : List (Delivery ℝ)}

/-- Where the readings end up while the heaters and the laser stay as they are. -/
noncomputable def resting (c : SimulatorSettings ℝ) (h : Heaters) (laser : Bool) : ℝ :=
  c.bias + c.voltsPerMilliwatt * (c.heaterPower h + if laser then c.laserPower else 0)

private theorem target_eq (c : SimulatorSettings ℝ) (h : Heaters) (t : Duration) :
    c.target h t = c.resting h (c.laserOn t) := by
  rw [target, resting, mul_comm c.voltsPerMilliwatt]

/-! ## The share of the way -/

private theorem approach_eq (c : SimulatorSettings ℝ) :
    c.approach = if c.timeConstant = 0 then 1 else min 1 ((c.period : ℝ) / c.timeConstant) := by
  by_cases instant : c.timeConstant = 0
  · have none : Scalar.lt (0 : ℝ) c.timeConstant.seconds = false := by
      rw [Scalar.Real.lt_eq_false_iff, Duration.seconds_real, instant]
      simp
    rw [approach, none, if_pos instant]
    norm_num
  · have some : Scalar.lt (0 : ℝ) c.timeConstant.seconds = true :=
      (Scalar.Real.lt_iff _ _).mpr (Duration.seconds_real_pos (Nat.pos_of_ne_zero instant))
    have ratio : (c.period.seconds : ℝ) / c.timeConstant.seconds = c.period / c.timeConstant := by
      rw [Duration.seconds_real, Duration.seconds_real]
      exact div_div_div_cancel_right₀ (by norm_num) _ _
    have one : (1.0 : ℝ) = 1 := by norm_num
    rw [approach, some, if_neg instant, min_comm, min_def_lt]
    simp only [if_true, ratio, one, Scalar.Real.lt_iff]

private theorem approach_mem (c : SimulatorSettings ℝ) : c.approach ∈ Set.Icc (0 : ℝ) 1 := by
  rw [approach_eq]
  split
  · exact ⟨zero_le_one, le_rfl⟩
  · exact ⟨le_min zero_le_one (by positivity), min_le_left _ _⟩

/-! ## The power that is absorbed -/

noncomputable def fullPower (c : SimulatorSettings ℝ) : ℝ :=
  (c.resistances.toList.map (SequenceSettings.dissipated c.voltage)).sum + c.laserPower

private theorem dissipated_nonneg {voltage resistance : ℝ} (positive : 0 < resistance) :
    0 ≤ SequenceSettings.dissipated voltage resistance := by
  have square := mul_self_nonneg voltage
  rw [SequenceSettings.dissipated, mul_assoc]
  positivity

private theorem heaterPower_mem (resistive : ∀ r ∈ c.resistances.toList, 0 < r) (h : Heaters) :
    c.heaterPower h ∈
      Set.Icc 0 (c.resistances.toList.map (SequenceSettings.dissipated c.voltage)).sum := by
  have each : ∀ p ∈ c.resistances.toList.map (SequenceSettings.dissipated c.voltage), 0 ≤ p := by
    intro p member
    obtain ⟨r, present, rfl⟩ := List.mem_map.mp member
    exact dissipated_nonneg (resistive r present)
  have all : (h.toList.zip c.resistances.toList).map
      (fun p => SequenceSettings.dissipated c.voltage p.2) =
        c.resistances.toList.map (SequenceSettings.dissipated c.voltage) := rfl
  -- The heaters that are on are some of all heaters, and none of the others has less than no power.
  have burning := (List.filter_sublist (p := Prod.fst)
    (l := h.toList.zip c.resistances.toList)).map fun p => SequenceSettings.dissipated c.voltage p.2
  rw [all] at burning
  rw [heaterPower, Scalar.Real.sum_eq]
  exact ⟨List.sum_nonneg fun p member => each p (burning.subset member),
    burning.sum_le_sum each⟩

private theorem resting_mem (laser : 0 ≤ c.laserPower) (volts : 0 ≤ c.voltsPerMilliwatt)
    (resistive : ∀ r ∈ c.resistances.toList, 0 < r) (h : Heaters) (lit : Bool) :
    c.resting h lit ∈ Set.Icc c.bias (c.bias + c.voltsPerMilliwatt * c.fullPower) := by
  obtain ⟨some, most⟩ := heaterPower_mem resistive h
  have shot : (if lit then c.laserPower else 0) ∈ Set.Icc 0 c.laserPower := by
    cases lit with
    | false => exact ⟨le_rfl, laser⟩
    | true => exact ⟨laser, le_rfl⟩
  exact ⟨le_add_of_nonneg_right (mul_nonneg volts (add_nonneg some shot.1)),
    add_le_add_right (mul_le_mul_of_nonneg_left (add_le_add most shot.2) volts) c.bias⟩

/-! ## Runs that lag -/

/-- Each reading covers the head's share of the way from the one before it, from `x` at first, to the target at
its sample. -/
inductive Lags (c : SimulatorSettings ℝ) : ℝ → List (Delivery ℝ) → Prop
  | nil {x : ℝ} : Lags c x []
  | cons {x : ℝ} {d : Delivery ℝ} {rest : List (Delivery ℝ)}
      (moved : d.sample.reading = x + c.approach * (c.target d.heaters d.sample.time - x))
      (later : Lags c d.sample.reading rest) : Lags c x (d :: rest)

private theorem lags_of_samples (silent : c.noise = 0) (k : Nat)
    (samples : run.map Delivery.sample = c.samplesFrom k x (run.map Delivery.heaters)) : c.Lags x run := by
  induction run generalizing k x with
  | nil => exact .nil
  | cons d rest ih =>
    obtain ⟨first, others⟩ := List.cons.inj samples
    have time : d.sample.time = k * c.period := congrArg Sample.time first
    have reading : d.sample.reading = c.warmed k x d.heaters := by
      rw [first, sampleAt, silent, mul_zero, add_zero]
    refine .cons ?_ ?_
    · rw [reading, warmed, time]
    · rw [reading]
      exact ih (k + 1) others

private theorem Lags.split {before rest : List (Delivery ℝ)} (lags : c.Lags x (before ++ rest)) :
    c.Lags x before ∧ c.Lags ((before.map fun d => d.sample.reading).getLastD x) rest := by
  induction before generalizing x with
  | nil => exact ⟨.nil, lags⟩
  | cons d before ih =>
    cases lags with
    | cons moved later =>
      obtain ⟨front, back⟩ := ih later
      rw [List.map_cons, List.getLastD_cons]
      exact ⟨.cons moved front, back⟩

private theorem Lags.mem {s : Set ℝ} (lags : c.Lags x run) (convex : Convex ℝ s) (first : x ∈ s)
    (targets : ∀ d ∈ run, c.target d.heaters d.sample.time ∈ s) : ∀ d ∈ run, d.sample.reading ∈ s := by
  induction lags with
  | nil => exact fun _ member => absurd member List.not_mem_nil
  | @cons x d rest moved _ ih =>
    obtain ⟨target, others⟩ := List.forall_mem_cons.mp targets
    -- A point between two points of a convex set is in the set.
    have next : d.sample.reading ∈ s := by
      rw [moved]
      exact convex.add_smul_sub_mem first target c.approach_mem
    exact List.forall_mem_cons.mpr ⟨next, ih next others⟩

private theorem Lags.sub_eq {target : ℝ} (lags : c.Lags x run)
    (same : ∀ d ∈ run, c.target d.heaters d.sample.time = target) (k : Nat) (d : Delivery ℝ)
    (delivered : run[k]? = some d) :
    d.sample.reading - target = (1 - c.approach) ^ (k + 1) * (x - target) := by
  induction lags generalizing k with
  | nil => simp at delivered
  | @cons x first rest moved _ ih =>
    obtain ⟨here, others⟩ := List.forall_mem_cons.mp same
    have step : first.sample.reading - target = (1 - c.approach) * (x - target) := by
      rw [moved, here]
      ring
    cases k with
    | zero =>
      obtain rfl : first = d := by simpa using delivered
      rw [step, zero_add, pow_one]
    | succ k =>
      rw [ih others k delivered, step, pow_succ _ (k + 1), mul_assoc]

end SimulatorSettings

namespace SimulatedHead

private theorem deliveries_lag {c : SimulatorSettings ℝ} (silent : c.noise = 0) (events : List HeadEvent) :
    c.Lags c.bias ((start c).deliveries events) :=
  SimulatorSettings.lags_of_samples silent 0 (deliveries_samples events (start_scheduled c))

/-- Whatever is done with a head that has no noise, its readings stay between the bias and what all heaters and
the laser together would heat it to. On a stretch of samples with the same heaters and the same state of the
laser they approach one target by a fixed factor, counted from the last reading before, and do not go beyond
it. -/
theorem head_lags (c : SimulatorSettings ℝ) (silent : c.noise = 0) (laser : 0 ≤ c.laserPower)
    (volts : 0 ≤ c.voltsPerMilliwatt) (resistive : ∀ r ∈ c.resistances.toList, 0 < r)
    (events : List HeadEvent) :
    let run := (start c).deliveries events
    let share : ℝ := if c.timeConstant = 0 then 1 else min 1 ((c.period : ℝ) / c.timeConstant)
    (∀ d ∈ run, d.sample.reading ∈ Set.Icc c.bias (c.bias + c.voltsPerMilliwatt * c.fullPower)) ∧
      ∀ before stretch rest heaters lit, run = before ++ stretch ++ rest →
        (∀ d ∈ stretch, d.heaters = heaters ∧ c.laserOn d.sample.time = lit) →
        let first := (before.map fun d => d.sample.reading).getLastD c.bias
        let target := c.resting heaters lit
        ∀ k d, stretch[k]? = some d →
          d.sample.reading - target = (1 - share) ^ (k + 1) * (first - target) ∧
            d.sample.reading ∈ Set.uIcc first target := by
  intro run share
  have lags : c.Lags c.bias run := deliveries_lag silent events
  refine ⟨?_, ?_⟩
  · have range := SimulatorSettings.resting_mem laser volts resistive
    refine lags.mem (convex_Icc _ _) ⟨le_rfl, ?_⟩ fun d _ => ?_
    · exact (range Heaters.off false).1.trans (range Heaters.off false).2
    · rw [c.target_eq]
      exact range d.heaters (c.laserOn d.sample.time)
  · intro before stretch rest heaters lit parts steady first target k d delivered
    rw [parts] at lags
    have here : c.Lags first stretch := lags.split.1.split.2
    have same : ∀ d ∈ stretch, c.target d.heaters d.sample.time = target := by
      intro d member
      obtain ⟨on, shot⟩ := steady d member
      rw [c.target_eq, on, shot]
    refine ⟨?_, ?_⟩
    · have closer := here.sub_eq same k d delivered
      rwa [c.approach_eq] at closer
    · refine here.mem (convex_uIcc _ _) Set.left_mem_uIcc ?_ d (List.mem_of_getElem? delivered)
      intro d member
      rw [same d member]
      exact Set.right_mem_uIcc

noncomputable def silent : SimulatorSettings ℝ := { noise := 0 }

/-- The third heater is on at the first sample only. -/
def glimpse : List HeadEvent := [
  .command (Heaters.only 3), .read 0, .command Heaters.off, .read (Duration.ofMillis 100),
  .read (Duration.ofMillis 100)]

theorem head_lags_glimpse :
    silent.noise = 0 ∧ 0 ≤ silent.laserPower ∧ 0 ≤ silent.voltsPerMilliwatt ∧
      (∀ r ∈ silent.resistances.toList, 0 < r) ∧
      ∃ warm cool cold, (start silent).deliveries glimpse = [warm, cool, cold] ∧
        warm.sample.reading = 1 / 20 * 0.125 ∧
        cold.sample.reading = (19 / 20) ^ 2 * warm.sample.reading ∧
        cold.sample.reading ∈ Set.uIcc warm.sample.reading 0 := by
  have laser : 0 ≤ silent.laserPower := by norm_num [silent]
  have volts : 0 ≤ silent.voltsPerMilliwatt := by norm_num [silent]
  have resistive : ∀ r ∈ silent.resistances.toList, 0 < r := by norm_num [silent, PerHeater.toList]
  obtain ⟨_, stretches⟩ := head_lags silent rfl laser volts resistive glimpse
  have share : (if silent.timeConstant = 0 then 1
      else min 1 ((silent.period : ℝ) / silent.timeConstant)) = 1 / 20 := by
    norm_num [silent, Duration.ofMillis, Duration.ofSeconds, Duration.perSecond]
  have heated : silent.resting (Heaters.only 3) false = 0.125 := by
    norm_num [SimulatorSettings.resting, SimulatorSettings.heaterPower, silent, Heaters.only,
      PerHeater.toList, Scalar.Real.sum_eq, SequenceSettings.dissipated]
  have dark : silent.resting Heaters.off false = 0 := by
    norm_num [SimulatorSettings.resting, SimulatorSettings.heaterPower, silent, Heaters.off,
      PerHeater.toList, Scalar.Real.sum_eq]
  have bias : silent.bias = 0 := rfl
  have early (t : Duration) (soon : t < silent.laserPeriod) : silent.laserOn t = false := by
    simp [SimulatorSettings.laserOn, soon]
  have warmed := stretches [] [_] [_, _] (Heaters.only 3) false rfl
    (List.forall_mem_singleton.mpr ⟨rfl, early _ (by decide)⟩) 0 _ rfl
  have cooled := stretches [_] [_, _] [] Heaters.off false rfl
    (List.forall_mem_cons.mpr ⟨⟨rfl, early _ (by decide)⟩,
      List.forall_mem_singleton.mpr ⟨rfl, early _ (by decide)⟩⟩) 1 _ rfl
  rw [share, heated] at warmed
  rw [share, dark] at cooled
  refine ⟨rfl, laser, volts, resistive, _, _, _, rfl, ?_, ?_, cooled.2⟩
  · rw [sub_eq_iff_eq_add.mp warmed.1, List.map_nil, List.getLastD_nil, bias]
    norm_num
  · rw [sub_eq_iff_eq_add.mp cooled.1, List.map_singleton, List.getLastD_cons, List.getLastD_nil]
    norm_num

end SimulatedHead
end Calorimetry
