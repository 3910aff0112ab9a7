import Calorimetry.Config.Assembly
import Calorimetry.Proofs.Config.Points
import Calorimetry.Proofs.Duration

/-! What a configuration without a fault stands for. Its heater sequence, its simulated head and its table
can be built, and so can its measurement if the window is a time of at least one nanosecond. -/

namespace Calorimetry
namespace Config

private theorem require_eq_none_iff (passes : Bool) (f : Fault) : require passes f = none ↔ passes = true := by
  cases passes <;> simp [require]

private theorem firstFault_nil : firstFault [] = none := rfl

private theorem firstFault_cons_eq_none_iff (check : Option Fault) (rest : List (Option Fault)) :
    firstFault (check :: rest) = none ↔ check = none ∧ firstFault rest = none := by
  simp [firstFault]

/-! ## The two checks of heater sequences -/

/-- The same sequences pass, in whatever order the heaters before them are kept. -/
theorem sequenceFault?_eq_none_iff (order seen seen' : List Nat) (same : ∀ h, h ∈ seen ↔ h ∈ seen') :
    sequenceFault? seen order = none ↔ SequenceSettings.orderFault? seen' order = none := by
  induction order generalizing seen seen' with
  | nil => simp [sequenceFault?, SequenceSettings.orderFault?]
  | cons h rest ih =>
    have unknown : (h < 1 || 3 < h) = (h = 0 || PerHeater.count < h) := by
      rw [Bool.eq_iff_iff]
      simp only [Bool.or_eq_true, decide_eq_true_eq, Nat.lt_one_iff]
      exact Iff.rfl
    have repeated : seen.contains h = seen'.contains h := by
      rw [Bool.eq_iff_iff, List.contains_iff_mem, List.contains_iff_mem, same]
    have later : ∀ k, k ∈ seen ++ [h] ↔ k ∈ h :: seen' := by simp [same, or_comm]
    rw [sequenceFault?, SequenceSettings.orderFault?, unknown, repeated]
    split
    · simp
    · split
      · simp
      · exact ih _ _ later

/-! ## What the sections promise -/

structure Measurement.Sound (m : Measurement) : Prop where
  window : Scalar.isPositive m.windowSeconds = true
  threshold : Scalar.isPositive m.pulseThreshold = true
  minimum : Scalar.isNonnegative m.minPulseDuration = true
  ordered : Scalar.lt m.windowSeconds m.minPulseDuration = false
  outliers : Scalar.isPositive m.outlierRejectionFactor = true

structure HeaterSupply.Sound (h : HeaterSupply) : Prop where
  voltage : Scalar.isPositive h.supplyVoltage = true
  count : h.resistances.length = 3
  resistances : ∀ r ∈ h.resistances, Scalar.isPositive r = true

structure Calibration.Sound (c : Calibration) : Prop where
  baseline : 1 ≤ c.baselineMs
  heater : 1 ≤ c.heaterMs
  cooloff : 1 ≤ c.cooloffMs
  poll : 1 ≤ c.pollMs
  heaters : c.heaterSequence ≠ []
  sequence : sequenceFault? [] c.heaterSequence = none
  points : pointFault? c.points = none

private theorem Measurement.sound_of_fault? {m : Measurement} (sound : m.fault? = none) : m.Sound := by
  simp only [fault?, firstFault_cons_eq_none_iff, firstFault_nil, require_eq_none_iff,
    Bool.not_eq_true', and_true] at sound
  obtain ⟨window, threshold, minimum, ordered, outliers⟩ := sound
  exact ⟨window, threshold, minimum, ordered, outliers⟩

private theorem HeaterSupply.sound_of_fault? {h : HeaterSupply} (sound : h.fault? = none) : h.Sound := by
  simp only [fault?, firstFault_cons_eq_none_iff, firstFault_nil, require_eq_none_iff,
    Option.map_eq_none_iff, List.findIdx?_eq_none_iff, Bool.not_eq_false', decide_eq_true_eq,
    and_true] at sound
  obtain ⟨voltage, count, resistances⟩ := sound
  exact ⟨voltage, count, resistances⟩

private theorem Calibration.sound_of_fault? {c : Calibration} (sound : c.fault? = none) : c.Sound := by
  simp only [fault?, firstFault_cons_eq_none_iff, firstFault_nil, require_eq_none_iff,
    Option.map_eq_none_iff, Bool.not_eq_true', List.isEmpty_eq_false_iff, decide_eq_true_eq,
    and_true] at sound
  obtain ⟨baseline, heater, cooloff, poll, heaters, sequence, points⟩ := sound
  exact ⟨baseline, heater, cooloff, poll, heaters, sequence, points⟩

end Config

/-- A configuration of which each section that says how something is built has no fault. -/
structure Config.Sound (c : Config) : Prop where
  measurement : c.measurement.Sound
  heaters : c.heaters.Sound
  calibration : c.calibration.Sound

theorem Config.sound_of_fault? {c : Config} (sound : c.fault? = none) : c.Sound := by
  simp only [fault?, firstFault_cons_eq_none_iff, firstFault_nil, and_true] at sound
  obtain ⟨measurement, heaters, calibration, _, _⟩ := sound
  exact ⟨Measurement.sound_of_fault? measurement, HeaterSupply.sound_of_fault? heaters,
    Calibration.sound_of_fault? calibration⟩

/-! ## What is built from them -/

private theorem PerHeater.ofList?_of_length {β : Type} {values : List β} (count : values.length = 3) :
    ∃ h : PerHeater β, PerHeater.ofList? values = some h ∧ h.toList = values := by
  obtain ⟨a, b, c, rfl⟩ := List.length_eq_three.mp count
  exact ⟨⟨a, b, c⟩, rfl, rfl⟩

private theorem Calibration.Plan.ofSettings_of_sound {α : Type} [Scalar α] (c : SequenceSettings α)
    (sound : c.fault? = none) : Calibration.Plan.ofSettings c = .ok ⟨c, sound⟩ := by
  rw [Plan.ofSettings]
  split
  · rfl
  · next fault =>
    rw [sound] at fault
    cases fault

namespace Config

private theorem ofMillis_ne_zero {n : Nat} (positive : 1 ≤ n) : Duration.ofMillis n ≠ 0 := by
  rw [Duration.ofMillis]
  exact Nat.mul_ne_zero (Nat.ne_of_gt positive) (by decide)

theorem Sound.plan {c : Config} (sound : c.Sound) :
    ∃ plan, c.calibration.plan c.heaters = .ok plan := by
  obtain ⟨resistances, listed, values⟩ := PerHeater.ofList?_of_length sound.heaters.count
  have positive : resistances.toList.any (!Scalar.isPositive ·) = false := by
    rw [values]
    simpa using sound.heaters.resistances
  have order := (sequenceFault?_eq_none_iff c.calibration.heaterSequence [] [] (fun _ => Iff.rfl)).mp
    sound.calibration.sequence
  rw [Calibration.plan, listed]
  refine ⟨_, Calorimetry.Calibration.Plan.ofSettings_of_sound _ ?_⟩
  simp [SequenceSettings.fault?, ofMillis_ne_zero, sound.calibration.baseline, sound.calibration.heater,
    sound.calibration.cooloff, sound.calibration.poll, sound.heaters.voltage, positive, order]

theorem Sound.head {c : Config} (sound : c.Sound) :
    ∃ settings, c.simulation.head c.heaters = .ok settings := by
  obtain ⟨resistances, listed, _⟩ := PerHeater.ofList?_of_length sound.heaters.count
  rw [Simulation.head, listed]
  exact ⟨_, rfl⟩

theorem ofPoints_of_pointFault? {points : List (Point Float)} (sound : pointFault? points = none) :
    ∃ t, Table.ofPoints points = .ok t ∧ t.points = points := by
  rw [pointFault?_eq_none_iff, ← Table.exists_ofPoints_iff] at sound
  obtain ⟨t, made⟩ := sound
  exact ⟨t, made, (Table.ofPoints_eq_ok_iff points t).mp made⟩

namespace Measurement
variable {m : Measurement}

/-- If the window is a time then the minimum is one too, because it is not longer, and only a window of no
nanosecond is refused. -/
theorem Sound.settings_of_time (sound : m.Sound) {span : Duration}
    (window : Duration.ofSeconds? m.windowSeconds = some span) :
    ∃ minimum ≤ span, m.settings = if span = 0 then .error (.nonPositive "window") else .ok {
      span := span
      threshold := m.pulseThreshold
      minimum := minimum
      gap := m.gapTolerance
      outlierFactor := m.outlierRejectionFactor } := by
  obtain ⟨minimum, least, le⟩ := Duration.ofSeconds?_of_not_lt
    (Binary64.nonneg_of_isNonnegative sound.minimum) (Binary64.nonneg_of_isPositive sound.window)
    (of_decide_eq_false sound.ordered) window
  refine ⟨minimum, le, ?_⟩
  rw [settings, duration, duration, window, least]
  simp only [bind, Except.bind, MeterSettings.fault?, sound.threshold, sound.outliers]
  by_cases zero : span = 0
  · rw [if_pos zero, if_pos zero]
    rfl
  · rw [if_neg zero, if_neg zero]
    rfl

private theorem Sound.settings_of_brief (sound : m.Sound) (brief : m.windowSeconds < 5e-10) :
    m.settings = .error (.nonPositive "window") := by
  have nonneg := Binary64.nonneg_of_isPositive sound.window
  obtain ⟨_, _, built⟩ := sound.settings_of_time ((Duration.ofSeconds?_eq_zero_iff nonneg).mpr brief)
  exact built

private theorem Sound.settings_of_long (sound : m.Sound) (long : ¬m.windowSeconds < 18446744073709551616.0) :
    m.settings = .error (.negative "window") := by
  have nonneg := Binary64.nonneg_of_isPositive sound.window
  rw [settings, duration, (Duration.ofSeconds?_eq_none_iff nonneg).mpr long]
  rfl

theorem Sound.settings_of_usual (sound : m.Sound) (seen : ¬m.windowSeconds < 5e-10)
    (short : m.windowSeconds < 18446744073709551616.0) : ∃ s, m.settings = .ok s := by
  have nonneg := Binary64.nonneg_of_isPositive sound.window
  cases window : Duration.ofSeconds? m.windowSeconds with
  | none => exact absurd short ((Duration.ofSeconds?_eq_none_iff nonneg).mp window)
  | some span =>
    obtain ⟨minimum, _, built⟩ := sound.settings_of_time window
    have positive : span ≠ 0 := by
      rintro rfl
      exact seen ((Duration.ofSeconds?_eq_zero_iff nonneg).mp window)
    rw [if_neg positive] at built
    exact ⟨_, built⟩

end Measurement
/-- A configuration without a fault can be built from, its window apart. The measurement can be built exactly
if the window is a time of at least one nanosecond: a shorter one is rounded to no time at all, and one that
is too long for a time is refused as if it were negative. -/
theorem faultless_config_builds {c : Config} (faultless : c.fault? = none) :
    ((∃ s, c.measurement.settings = .ok s) ↔ 5e-10 ≤ c.measurement.windowSeconds ∧
        c.measurement.windowSeconds < 18446744073709551616.0) ∧
      (c.measurement.windowSeconds < 5e-10 →
        c.measurement.settings = .error (.nonPositive "window")) ∧
      (18446744073709551616.0 ≤ c.measurement.windowSeconds →
        c.measurement.settings = .error (.negative "window")) ∧
      (∃ plan, c.calibration.plan c.heaters = .ok plan) ∧
      (∃ settings, c.simulation.head c.heaters = .ok settings) ∧
      ∃ t, Table.ofPoints c.calibration.points = .ok t ∧ t.points = c.calibration.points := by
  have sound := sound_of_fault? faultless
  have nonneg := Binary64.nonneg_of_isPositive sound.measurement.window
  have seen := Binary64.le_iff_not_lt (x := 5e-10) (by decide) nonneg
  have long := Binary64.le_iff_not_lt (x := 18446744073709551616.0) (by decide) nonneg
  rw [seen, long]
  refine ⟨⟨?_, ?_⟩, sound.measurement.settings_of_brief, sound.measurement.settings_of_long, sound.plan,
    sound.head, ofPoints_of_pointFault? sound.calibration.points⟩
  · rintro ⟨s, built⟩
    constructor
    · intro brief
      rw [sound.measurement.settings_of_brief brief] at built
      cases built
    · apply Classical.byContradiction
      intro long
      rw [sound.measurement.settings_of_long long] at built
      cases built
  · rintro ⟨seen, short⟩
    exact sound.measurement.settings_of_usual seen short

theorem faultless_config_builds_usual : ({} : Config).fault? = none ∧
    (∃ s, ({} : Config).measurement.settings = .ok s) ∧
    (∃ plan, ({} : Config).calibration.plan ({} : Config).heaters = .ok plan) := by
  have faultless : ({} : Config).fault? = none := by decide
  obtain ⟨built, _, _, plan, _⟩ := faultless_config_builds faultless
  exact ⟨faultless, built.mpr (by decide), plan⟩

/-- A window of a tenth of a nanosecond. -/
def brief : Measurement := { windowSeconds := 1e-10, minPulseDuration := 0.0 }

/-- A window that no clock can hold. -/
def endless : Measurement := { windowSeconds := 1e20 }

theorem faultless_config_refused :
    ({ measurement := brief } : Config).fault? = none ∧ brief.settings = .error (.nonPositive "window") ∧
      ({ measurement := endless } : Config).fault? = none ∧
      endless.settings = .error (.negative "window") := by
  have few : ({ measurement := brief } : Config).fault? = none := by decide
  have many : ({ measurement := endless } : Config).fault? = none := by decide
  exact ⟨few, (sound_of_fault? few).measurement.settings_of_brief (by decide), many,
    (sound_of_fault? many).measurement.settings_of_long (by decide)⟩

end Config
end Calorimetry
