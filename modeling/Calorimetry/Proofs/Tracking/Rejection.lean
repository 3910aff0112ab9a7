import Calorimetry.Proofs.LineFit.Rejection
import Calorimetry.Proofs.Tracking.Amplification
import Calorimetry.Proofs.Tracking.Fates
import Calorimetry.Proofs.Tracking.Fit

/-! Outliers of a pulse. A pulse spans at least two samples, at different times. With a factor whose square is
two or more most of them are kept when the line is fitted again, which is two of them at least, so over exact
readings no fit of a pulse is degenerate. -/

namespace Calorimetry

private theorem Duration.secondsBetween_real_lt {start t u : Duration} (began : start ≤ t) (later : t < u) :
    (secondsBetween start t : ℝ) < secondsBetween start u := by
  have steps : t - start < u - start := Nat.sub_lt_sub_right began later
  rw [secondsBetween, secondsBetween, seconds_real, seconds_real]
  exact div_lt_div_of_pos_right (Nat.cast_lt.mpr steps) (by positivity)

private theorem PulseFit.timedReadings_increasing {start : Duration} {samples : List (Sample ℝ)}
    (began : ∀ s ∈ samples, start ≤ s.time) (increasing : samples.Pairwise fun a b => a.time < b.time) :
    (timedReadings start samples).Pairwise fun p q => p.1 < q.1 := by
  rw [timedReadings, List.pairwise_map]
  refine increasing.imp_of_mem ?_
  intro a b first _ later
  exact Duration.secondsBetween_real_lt (began a first) later

private theorem Window.Sound.start_le_extract {α : Type} [Scalar α] {w : Window α} (sound : w.Sound)
    {start : Duration} {i : Nat} (found : w.indexOf? start = some i) (j : Nat) :
    ∀ s ∈ w.samples.extract i j, start ≤ s.time := by
  obtain ⟨a, present, rfl⟩ := w.sample_of_indexOf? start i found
  intro s member
  rw [List.extract_eq_take_drop] at member
  obtain ⟨l, there⟩ := List.mem_iff_getElem?.mp (List.mem_of_mem_take member)
  rw [List.getElem?_drop] at there
  exact (sound.time_le_iff present there).mpr (Nat.le_add_right i l)

private theorem Pulse.FittedIn.degenerate_eq_false {k threshold : ℝ} {w : Window ℝ} {p : Pulse ℝ} {i j : Nat}
    (fitted : p.FittedIn k w) (spans : p.Spans threshold w i j) (sound : w.Sound) (positive : 0 < k)
    (large : 2 ≤ k ^ 2) : p.degenerate = false := by
  rw [degenerate, fitted i j spans.start spans.stop]
  refine LineFit.degenerate_eq_false positive large ?_ ?_
  · apply PulseFit.timedReadings_increasing (sound.start_le_extract spans.start (j + 1))
    rw [List.extract_eq_take_drop]
    exact sound.increasing.sublist ((List.take_sublist _ _).trans (List.drop_sublist _ _))
  · have ordered := spans.ordered
    have bound := w.indexOf?_lt _ _ spans.stop
    rw [w.size_eq] at bound
    simp only [PulseFit.timedReadings, List.extract_eq_take_drop, List.length_map, List.length_take,
      List.length_drop]
    omega

namespace Session
open LineFit (Apart ofPoints)

/-- Over exact readings, the points that a fit leaves out are fewer than one in `k ^ 2` if there are any, so of
no more than `k ^ 2` points all are kept, and with the usual factor of 3 of nine or fewer. With a factor whose
square is two or more no tracked pulse has a degenerate fit, at whatever moment of a session. -/
theorem outliers_are_few :
    (∀ k : ℝ, 0 < k → ∀ points : List (ℝ × ℝ), Apart points →
      ∃ rejected : ℕ, (ofPoints k points).used + rejected = points.length ∧
        (0 < rejected → (rejected : ℝ) < points.length / k ^ 2) ∧
        ((points.length : ℝ) ≤ k ^ 2 → rejected = 0)) ∧
    (∀ points : List (ℝ × ℝ), Apart points → points.length < 10 →
      (ofPoints ({} : MeterSettings ℝ).outlierFactor points).used = points.length) ∧
    ∀ (c : MeterSettings ℝ) (points : List (Point ℝ)) (meter : Meter ℝ),
      Meter.ofSettings c points = .ok meter → 2 ≤ c.outlierFactor ^ 2 →
      ∀ (ops : List (Operation ℝ)) (trace : List (Event ℝ)) (now : Moment ℝ),
        (Moment.before { meter := meter } ops).Passes trace now →
        ∀ p ∈ now.session.meter.pulses, p.degenerate = false := by
  refine ⟨?_, ?_, ?_⟩
  · intro k positive points apart
    obtain ⟨l, all⟩ := LineFit.used_add_outliers positive apart
    refine ⟨_, all, fun some => ?_, fun few => ?_⟩
    · exact LineFit.length_outliers_lt positive (List.ne_nil_of_length_pos some)
    · rw [LineFit.outliers_eq_nil positive few, List.length_nil]
  · intro points apart few
    have three : ({} : MeterSettings ℝ).outlierFactor = 3 := by
      change (3.0 : ℝ) = 3
      norm_num
    rw [three]
    obtain ⟨l, all⟩ := LineFit.used_add_outliers (show (0 : ℝ) < 3 by norm_num) apart
    have few : (points.length : ℝ) ≤ 3 ^ 2 := by
      have bound : (points.length : ℝ) ≤ (9 : ℕ) := Nat.cast_le.mpr (Nat.le_of_lt_succ few)
      norm_num at bound ⊢
      exact bound
    rwa [LineFit.outliers_eq_nil (by norm_num) few, List.length_nil, Nat.add_zero] at all
  · intro c points meter built large ops trace now passes p member
    obtain ⟨valid, t, _, rfl⟩ := Meter.ofSettings_eq_ok built
    have span := MeterSettings.span_pos valid
    have positive := (Scalar.Real.isPositive_iff _).mp (MeterSettings.isPositive_outlierFactor valid)
    have faithful : now.session.meter.Faithful c :=
      passes.leads.keeps (Meter.start_faithful c t) fun _ _ change => change.faithful span
    obtain ⟨i, j, spans⟩ := faithful.placed.spans p member
    exact (faithful.fitted p member).degenerate_eq_false spans faithful.sound positive large

-- One point in six is too far off with a factor of 2, and none with a factor of 3.
theorem outliers_are_few_spike :
    let spike : List (ℝ × ℝ) := [(0, 0), (1, 0), (2, 6), (2, 0), (3, 0), (4, 0)]
    (0 : ℝ) < 2 ∧ Apart spike ∧ (ofPoints 2 spike).used = 5 ∧
      ((spike.length - (ofPoints 2 spike).used : ℕ) : ℝ) < spike.length / 2 ^ 2 ∧ spike.length < 10 ∧
      (ofPoints ({} : MeterSettings ℝ).outlierFactor spike).used = 6 ∧
      Meter.ofSettings Rise.settings [] = .ok (Meter.start Rise.settings Table.empty) ∧
      2 ≤ Rise.settings.outlierFactor ^ 2 ∧ Rise.measured.pulses.map Pulse.phase = [.growing] ∧
      ∀ p ∈ Rise.measured.pulses, p.degenerate = false := by
  intro spike
  obtain ⟨bounded, few, sound⟩ := outliers_are_few
  have apart : Apart spike := ⟨(0, 0), by simp [spike], (1, 0), by simp [spike], by norm_num⟩
  have through : LineFit.leastSquares spike = some ⟨0, 1⟩ := by
    norm_num [LineFit.leastSquares_eq, LineFit.centredSum, LineFit.mean, spike]
  have spread : LineFit.spread ⟨0, 1⟩ spike = √5 := by
    rw [LineFit.spread_eq_sqrt]
    norm_num [Line.squaredError, Line.residual, spike]
  have near : (1 : ℝ) ≤ 2 * √5 := by
    have root : (1 : ℝ) ≤ √5 := Real.one_le_sqrt.mpr (by norm_num)
    linarith
  have far : ¬(5 : ℝ) ≤ 2 * √5 := by
    have root := Real.sq_sqrt (show (0 : ℝ) ≤ 5 by norm_num)
    nlinarith [Real.sqrt_nonneg 5]
  have kept : (ofPoints 2 spike).used = 5 := by
    rw [(LineFit.ofPoints_inliers two_pos through).1, LineFit.inliers, spread]
    norm_num [spike, List.filter_cons, LineFit.isInlier_iff, Line.residual, near, far]
  obtain ⟨rejected, all, fewer, _⟩ := bounded 2 two_pos spike apart
  have one : rejected = 1 := by
    rw [kept] at all
    exact Nat.add_left_cancel all
  have large : 2 ≤ Rise.settings.outlierFactor ^ 2 := by norm_num [Rise.settings]
  obtain ⟨trace, passes⟩ := operate_reached Rise.session ([Rise.first, Rise.second].map .ingest)
  refine ⟨two_pos, apart, kept, ?_, by decide, few spike apart (by decide), Rise.built, large, Rise.pulses,
    sound Rise.settings [] _ Rise.built large _ trace _ passes⟩
  have lost : spike.length - 5 = rejected := one.symm
  rw [kept, lost]
  exact fewer (by omega)

end Session
end Calorimetry
