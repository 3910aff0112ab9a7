import Calorimetry.Proofs.Scalar.Size
import Calorimetry.Proofs.Session.Replay
import Calorimetry.Proofs.Tracking.Fit

/-! Slopes are finite. Whatever the readings are and whatever the operations make of them, a fit only returns a
slope that was found finite or is zero, and a tracked pulse carries the slope of a fit. Nothing is asked of the
arithmetic but that zero is finite. -/

namespace Calorimetry
variable {α : Type} [Scalar α]

namespace LineFit
variable {points : List (α × α)} {l : Line α}

/-- What a fit to `points` promises, however the sums have come out. -/
structure Guarded (points : List (α × α)) (fit : LineFit α) : Prop where
  finite : Scalar.isFinite fit.slope = true
  flat : fit.degenerate = true → fit.slope = 0 ∧ fit.intercept = 0
  used : fit.used ≤ points.length

private theorem finite_of_guard {slope intercept : α}
    (passed : (if Scalar.isFinite slope then some ⟨slope, intercept⟩ else Option.none) = some l) :
    Scalar.isFinite l.slope = true := by
  split at passed
  · next finite =>
    cases passed
    exact finite
  · cases passed

private theorem leastSquares_finite (fitted : leastSquares points = some l) : Scalar.isFinite l.slope = true := by
  unfold leastSquares at fitted
  dsimp only at fitted
  split at fitted
  · cases fitted
  split at fitted
  · cases fitted
  · exact finite_of_guard fitted

private theorem Moments.line?_finite {m : Moments α} (fitted : m.line? = some l) :
    Scalar.isFinite l.slope = true := by
  unfold Moments.line? at fitted
  dsimp only at fitted
  split at fitted
  · cases fitted
  · exact finite_of_guard fitted

private theorem none_guarded (zero : Scalar.isFinite (0 : α) = true) {used : Nat} (le : used ≤ points.length) :
    Guarded points (none used) :=
  ⟨zero, fun _ => ⟨rfl, rfl⟩, le⟩

private theorem line_guarded (finite : Scalar.isFinite l.slope = true) {used : Nat} (le : used ≤ points.length) :
    Guarded points ⟨l, used, false⟩ :=
  ⟨finite, fun degenerate => absurd degenerate Bool.false_ne_true, le⟩

/-- There are four ways out of a fit: no line at first, the first line, the line of the inliers, and none
through them. -/
private theorem ofPoints_guarded (zero : Scalar.isFinite (0 : α) = true) (k : α) (points : List (α × α)) :
    Guarded points (ofPoints k points) := by
  rw [ofPoints]
  cases fitted : leastSquares points with
  | none => exact none_guarded zero (Nat.le_refl _)
  | some first =>
    dsimp only
    split
    · exact line_guarded (leastSquares_finite fitted) (Nat.le_refl _)
    · split
      · next refined again => exact line_guarded (Moments.line?_finite again) (List.length_filter_le _ _)
      · exact none_guarded zero (List.length_filter_le _ _)

end LineFit

/-- Every tracked pulse carries what some fit has come to. -/
theorem Meter.Faithful.exists_fit {c : MeterSettings α} {m : Meter α} (faithful : m.Faithful c) {p : Pulse α}
    (tracked : p ∈ m.pulses) : ∃ points, p.slope = (LineFit.ofPoints c.outlierFactor points).slope ∧
      p.degenerate = (LineFit.ofPoints c.outlierFactor points).degenerate := by
  obtain ⟨i, j, spans⟩ := faithful.placed.spans p tracked
  have fitted := faithful.fitted p tracked i j spans.start spans.stop
  exact ⟨_, congrArg PulseFit.slope fitted, congrArg PulseFit.degenerate fitted⟩

namespace Session

/-- Where zero is finite, the slope of every fit is, to whatever points and with whatever outlier factor, and so
is the slope of every tracked pulse at whatever moment of a session, also while rounds are in progress. A
degenerate fit is the zero line, and no fit rests on more points than there are. -/
theorem slopes_stay_finite (zero : Scalar.isFinite (0 : α) = true) :
    (∀ (k : α) (points : List (α × α)), let fit := LineFit.ofPoints k points
      Scalar.isFinite fit.slope = true ∧ (fit.degenerate = true → fit.slope = 0 ∧ fit.intercept = 0) ∧
        fit.used ≤ points.length) ∧
    ∀ (c : MeterSettings α) (points : List (Point α)) (meter : Meter α),
      Meter.ofSettings c points = .ok meter →
      ∀ (ops : List (Operation α)) (trace : List (Event α)) (now : Moment α),
        (Moment.before { meter := meter } ops).Passes trace now →
        ∀ p ∈ now.session.meter.pulses,
          Scalar.isFinite p.slope = true ∧ (p.degenerate = true → p.slope = 0) := by
  have guarded := LineFit.ofPoints_guarded zero
  refine ⟨fun k points => ⟨(guarded k points).finite, (guarded k points).flat, (guarded k points).used⟩, ?_⟩
  intro c points meter built ops trace now passes p tracked
  obtain ⟨valid, t, _, rfl⟩ := Meter.ofSettings_eq_ok built
  have faithful : now.session.meter.Faithful c :=
    passes.leads.keeps (Meter.start_faithful c t) fun _ _ change =>
      change.faithful (MeterSettings.span_pos valid)
  obtain ⟨fittedTo, slope, degenerate⟩ := faithful.exists_fit tracked
  have fit := guarded c.outlierFactor fittedTo
  rw [slope, degenerate]
  exact ⟨fit.finite, fun flat => (fit.flat flat).1⟩

/-- From the lowest reading to the greatest, so the rate is infinite. -/
def swing : List (Operation Float) :=
  [.ingest (TwoHeatings.second 0 Binary64.lowest), .ingest (TwoHeatings.second 1 Binary64.greatest)]

-- The squares of the residuals of `peak` overflow, the quotient for the slope of the swing does.
theorem slopes_stay_finite_swing :
    let peak : List (Float × Float) := [(0, 0), (1, Binary64.greatest), (2, 0)]
    let fit := LineFit.ofPoints TwoHeatings.settings.outlierFactor peak
    let start := Meter.start TwoHeatings.settings Table.empty
    let swung := (operate { meter := start } swing).meter
    Scalar.isFinite (0 : Float) = true ∧ Scalar.isFinite (LineFit.spread fit.toLine peak) = false ∧
      fit.used = 3 ∧ fit.used ≤ peak.length ∧ Scalar.isFinite fit.slope = true ∧
      Meter.ofSettings TwoHeatings.settings [] = .ok start ∧
      swung.pulses.map (fun p => Scalar.isFinite p.rate) = [false] ∧
      swung.pulses.map Pulse.degenerate = [true] ∧
      ∀ p ∈ swung.pulses, Scalar.isFinite p.slope = true ∧ (p.degenerate = true → p.slope = 0) := by
  intro peak fit start swung
  have zero : Scalar.isFinite (0 : Float) = true := by decide
  obtain ⟨fits, tracked⟩ := slopes_stay_finite zero
  obtain ⟨finite, _, used⟩ := fits TwoHeatings.settings.outlierFactor peak
  obtain ⟨trace, passes⟩ := operate_reached { meter := start } swing
  exact ⟨zero, by decide +kernel, by decide +kernel, used, finite, TwoHeatings.built, by decide +kernel,
    by decide +kernel, tracked TwoHeatings.settings [] start TwoHeatings.built swing trace _ passes⟩

end Session
end Calorimetry
