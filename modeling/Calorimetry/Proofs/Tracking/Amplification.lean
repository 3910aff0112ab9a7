import Calorimetry.Proofs.LineFit.Amplification
import Calorimetry.Proofs.Tracking.Rendition

/-! A sensor with another gain and another bias. Over exact readings a measurement whose threshold goes along
with the gain follows the same pulses. What it tells of them in volts is multiplied by the gain, and the bias
does not show at all. -/

namespace Calorimetry

/-- The sample with its reading amplified; what is known of the heaters stays. -/
noncomputable def Sample.amplified (gain bias : ℝ) (s : Sample ℝ) : Sample ℝ :=
  { s with reading := amplify gain bias s.reading }

namespace MeterSettings

noncomputable def amplified (gain : ℝ) (c : MeterSettings ℝ) : MeterSettings ℝ :=
  { c with threshold := gain * c.threshold }

private theorem fault?_amplified {gain : ℝ} (positive : 0 < gain) (c : MeterSettings ℝ) :
    (c.amplified gain).fault? = c.fault? := by
  have threshold : Scalar.isPositive (c.amplified gain).threshold = Scalar.isPositive c.threshold :=
    Scalar.Real.isPositive_mul_left positive c.threshold
  rw [fault?, fault?, threshold]
  rfl

end MeterSettings

/-- `q` is the same pulse as `p`, but what is told of it in volts is multiplied by the gain. -/
structure Pulse.Amplified (gain : ℝ) (p q : Pulse ℝ) : Prop where
  start : q.start = p.start
  stop : q.stop = p.stop
  length : q.length = p.length
  phase : q.phase = p.phase
  degenerate : q.degenerate = p.degenerate
  rate : q.rate = gain * p.rate
  slope : q.slope = gain * p.slope
  rise : q.rise = gain * p.rise

structure LocatedPulse.Amplified (gain : ℝ) (p q : LocatedPulse ℝ) : Prop where
  first : q.first = p.first
  last : q.last = p.last
  pulse : p.pulse.Amplified gain q.pulse

namespace Rendition

noncomputable def amplified (gain bias : ℝ) : Rendition ℝ := ⟨0, amplify gain bias, (gain * ·)⟩

variable {gain : ℝ}

private theorem amplified_suits (positive : 0 < gain) (bias : ℝ) (c : MeterSettings ℝ) :
    (amplified gain bias).Suits c (c.amplified gain) where
  span := rfl
  minimum := rfl
  reach := rfl
  hot rate := Scalar.Real.lt_mul_left positive c.threshold rate
  finite _ := rfl
  zero := mul_zero gain
  sum := mul_zero gain
  quotient y z t := by
    change (amplify gain bias z - amplify gain bias y) / t = gain * ((z - y) / t)
    rw [amplify, amplify]
    ring
  adds sum rate t := by
    change gain * sum + gain * rate * t = gain * (sum + rate * t)
    ring
  line points := by
    obtain ⟨slope, _, degenerate⟩ := LineFit.ofPoints_amplified positive bias c.outlierFactor points
    exact ⟨slope, degenerate⟩

variable {bias : ℝ}

private theorem Renders.amplified {p q : Pulse ℝ} (renders : (amplified gain bias).Renders p q) :
    p.Amplified gain q where
  start := renders.start
  stop := renders.stop
  length := renders.length
  phase := renders.phase
  degenerate := (congrArg PulseFit.degenerate renders.fit).trans rfl
  rate := renders.rate
  slope := congrArg PulseFit.slope renders.fit
  rise := congrArg PulseFit.rise renders.fit

end Rendition

namespace Session

/-- Over exact readings, an amplified stream leaves a new session with a threshold to match with pulses that
are amplified by the gain, after every sample. They lie at the same positions and times, and grow and end
with the others. -/
theorem amplified_stream_measured_alike {c : MeterSettings ℝ} {points : List (Point ℝ)} {m : Meter ℝ}
    (built : Meter.ofSettings c points = .ok m) (s : Session ℝ) (fresh : s.meter = m)
    (passive : s.Passive) {gain : ℝ} (positive : 0 < gain) (bias : ℝ) :
    ∃ m', Meter.ofSettings (c.amplified gain) points = .ok m' ∧ ∀ stream : List (Sample ℝ),
      let here := stream.foldl ingest s
      let there := (stream.map (Sample.amplified gain bias)).foldl ingest { s with meter := m' }
      there.anomalies = here.anomalies ∧
        there.meter.snapshot.samples = here.meter.snapshot.samples.map (Sample.amplified gain bias) ∧
        there.meter.snapshot.rates = here.meter.snapshot.rates.map (gain * ·) ∧
        List.Forall₂ (Pulse.Amplified gain) here.meter.pulses there.meter.pulses ∧
        List.Forall₂ (LocatedPulse.Amplified gain) here.meter.snapshot.pulses
          there.meter.snapshot.pulses ∧
        ∀ t, there.meter.slopeSince? t = (here.meter.slopeSince? t).map (gain * ·) := by
  obtain ⟨valid, t, table, rfl⟩ := Meter.ofSettings_eq_ok built
  refine ⟨Meter.start (c.amplified gain) t, ?_, ?_⟩
  · rw [Meter.ofSettings, MeterSettings.fault?_amplified positive, valid, table]
    rfl
  intro stream here there
  have suits := Rendition.amplified_suits positive bias c
  have begun : (Rendition.amplified gain bias).Accompanies c (c.amplified gain) s
      { s with meter := Meter.start (c.amplified gain) t } :=
    ⟨fresh ▸ Rendition.start_tells suits t t, passive, passive, rfl⟩
  have tells := (begun.ingest_all suits stream).tells
  refine ⟨(begun.ingest_all suits stream).anomalies, tells.views.samples, tells.views.rates,
    tells.pulses.imp fun _ _ renders => renders.amplified, ?_, tells.slopeSince? suits⟩
  exact (tells.shows suits).imp fun _ _ shows => ⟨shows.first, shows.last, shows.pulse.amplified⟩

/-! One second with a rise of a volt, which is a volt in the second above the threshold of half of that. -/

namespace Rise

noncomputable def settings : MeterSettings ℝ := { threshold := 1 / 2, outlierFactor := 3 }

theorem built : Meter.ofSettings settings [] = .ok (Meter.start settings Table.empty) := by
  have threshold : Scalar.isPositive (1 / 2 : ℝ) = true :=
    (Scalar.Real.isPositive_iff _).mpr (by norm_num)
  have factor : Scalar.isPositive (3 : ℝ) = true := (Scalar.Real.isPositive_iff _).mpr (by norm_num)
  have valid : settings.fault? = none := by
    simp only [settings, MeterSettings.fault?, threshold, factor]
    rfl
  rw [Meter.ofSettings, valid]
  rfl

noncomputable def session : Session ℝ := { meter := Meter.start settings Table.empty }

noncomputable def first : Sample ℝ := .plain 0 0

noncomputable def second : Sample ℝ := .plain (Duration.ofSeconds 1) 1

noncomputable def measured : Meter ℝ := ([first, second].foldl ingest session).meter

private theorem rate : Window.rateBetween first second = 1 := by
  have step : (Duration.secondsBetween 0 (Duration.ofSeconds 1) : ℝ) = 1 := by
    rw [Duration.secondsBetween, Duration.seconds_real]
    norm_num [Duration.ofSeconds, Duration.perSecond]
  change ((1 : ℝ) - 0) / Duration.secondsBetween 0 (Duration.ofSeconds 1) = 1
  rw [step, sub_zero, div_one]

private theorem rates : measured.snapshot.rates = [1] := by
  rw [← rate]
  rfl

theorem pulses : measured.pulses.map Pulse.phase = [.growing] := by
  have hot : Scalar.lt settings.threshold (1 : ℝ) = true :=
    (Scalar.Real.lt_iff _ _).mpr (by norm_num [settings])
  have latest : measured.window.latestRate? = some 1 := by
    rw [← rate]
    rfl
  have last : measured.window.lastTwo? = some (first, second) := rfl
  have begun : Pulses.advance settings measured.window [] = [.begin first.time second.time 1] := by
    rw [Pulses.advance, latest, last]
    simp only [hot, if_true]
  change (((Pulses.advance settings measured.window []).revise _).settle _).map Pulse.phase = _
  rw [begun]
  rfl

end Rise

theorem amplified_stream_measured_alike_rise :
    ∃ m', Meter.ofSettings (Rise.settings.amplified 10) [] = .ok m' ∧
      let there := (([Rise.first, Rise.second].map (Sample.amplified 10 3)).foldl ingest
        { Rise.session with meter := m' }).meter
      there.snapshot.samples.map Sample.reading = [3, 13] ∧ there.snapshot.rates = [10] ∧
        Rise.measured.pulses.map Pulse.phase = [.growing] ∧
          List.Forall₂ (Pulse.Amplified 10) Rise.measured.pulses there.pulses := by
  have passive : Rise.session.Passive := fun _ member => absurd member List.not_mem_nil
  obtain ⟨m', built, alike⟩ := amplified_stream_measured_alike Rise.built Rise.session rfl passive
    (show (0 : ℝ) < 10 by norm_num) 3
  obtain ⟨_, samples, rates, pulses, _, _⟩ := alike [Rise.first, Rise.second]
  refine ⟨m', built, ?_, ?_, Rise.pulses, pulses⟩
  · rw [samples]
    change [amplify 10 3 0, amplify 10 3 1] = _
    norm_num [amplify]
  · refine rates.trans ?_
    change Rise.measured.snapshot.rates.map _ = _
    rw [Rise.rates]
    norm_num

end Session
end Calorimetry
