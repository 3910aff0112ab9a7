import Calorimetry.Proofs.Tracking.Rejection
import Calorimetry.Proofs.Tracking.Strict

/-! What a pulse says of its rise. Each rate is the step in the reading over the step in time, so over exact
readings rate times step is the step in the reading again. The sum of these from the first sample of a pulse
to its last one leaves the reading at the last less that at the first, however long ago the pulse was
fitted. -/

namespace Calorimetry

private theorem Window.rateBetween_mul_seconds {a b : Sample ℝ} (later : a.time < b.time) :
    rateBetween a b * Duration.secondsBetween a.time b.time = b.reading - a.reading := by
  have seconds : (Duration.secondsBetween a.time b.time : ℝ) ≠ 0 :=
    (Duration.seconds_real_pos (Nat.sub_pos_of_lt later)).ne'
  exact div_mul_cancel₀ _ seconds

/-- The rises along `n` steps add up to what the last of the samples reads more than the first. -/
private theorem PulseFit.addRises_eq_sub (n : Nat) {samples : List (Sample ℝ)}
    (increasing : samples.Pairwise fun a b => a.time < b.time) {a b : Sample ℝ}
    (first : samples[0]? = some a) (last : samples[n]? = some b) (sum : ℝ) :
    addRises sum ((List.zipWith Window.rateBetween samples samples.tail).take n) (samples.take (n + 1)) =
      sum + (b.reading - a.reading) := by
  induction n generalizing samples a sum with
  | zero =>
    cases Option.some.inj (first.symm.trans last)
    rw [List.take_zero, addRises, sub_self, add_zero]
    simp
  | succ n ih =>
    rcases samples with _ | ⟨x, _ | ⟨y, rest⟩⟩
    · contradiction
    · contradiction
    obtain rfl : x = a := Option.some.inj first
    obtain ⟨before, increasing⟩ := List.pairwise_cons.mp increasing
    have step := Window.rateBetween_mul_seconds (before y List.mem_cons_self)
    refine (ih increasing rfl last (sum + _)).trans ?_
    rw [step]
    ring

private theorem Window.Sound.rates_extract_eq {α : Type} [Scalar α] {w : Window α} (sound : w.Sound) (i j : Nat) :
    w.rates.extract i j =
      (List.zipWith rateBetween (w.samples.drop i) (w.samples.drop i).tail).take (j - i) := by
  rw [List.extract_eq_take_drop, sound.aligned, List.drop_zipWith, List.tail_drop, List.drop_tail]

private theorem Pulse.FittedIn.rise_eq {k threshold : ℝ} {w : Window ℝ} {p : Pulse ℝ} {i j : Nat}
    (fitted : p.FittedIn k w) (spans : p.Spans threshold w i j) (sound : w.Sound) {a b : Sample ℝ}
    (first : w.samples[i]? = some a) (last : w.samples[j]? = some b) :
    p.rise = b.reading - a.reading := by
  have ordered := spans.ordered
  have increasing : (w.samples.drop i).Pairwise fun a b => a.time < b.time :=
    sound.increasing.sublist (List.drop_sublist i _)
  have rise := congrArg PulseFit.rise (fitted i j spans.start spans.stop)
  rw [sound.rates_extract_eq, List.extract_eq_take_drop, show j + 1 - i = j - i + 1 by omega] at rise
  refine rise.trans ((PulseFit.addRises_eq_sub (j - i) increasing ?_ ?_ _).trans (zero_add _))
  · rw [List.getElem?_drop, Nat.add_zero]
    exact first
  · rw [List.getElem?_drop, Nat.add_sub_cancel' (Nat.le_of_lt ordered)]
    exact last

namespace Session

/-- Over exact readings, at whatever moment of a session, also while rounds are in progress, the rise of every
tracked pulse is the reading at its last sample less the one at its first, and both samples are still in the
window. This holds of a growing pulse as of one that was frozen long ago. -/
theorem rises_telescope {c : MeterSettings ℝ} {points : List (Point ℝ)} {meter : Meter ℝ}
    (built : Meter.ofSettings c points = .ok meter) (ops : List (Operation ℝ)) {trace : List (Event ℝ)}
    {now : Moment ℝ} (passes : (Moment.before { meter := meter } ops).Passes trace now) :
    let samples := now.session.meter.window.samples
    ∀ p ∈ now.session.meter.pulses,
      ∃ first last, p.locate? samples = some ⟨first, last, p⟩ ∧ first < last ∧
        ∃ a b, samples[first]? = some a ∧ samples[last]? = some b ∧ a.time = p.start ∧
          b.time = p.stop ∧ p.rise = b.reading - a.reading := by
  intro samples p member
  obtain ⟨valid, t, _, rfl⟩ := Meter.ofSettings_eq_ok built
  have span := MeterSettings.span_pos valid
  have faithful : now.session.meter.Faithful c :=
    passes.leads.keeps (Meter.start_faithful c t) fun _ _ change => change.faithful span
  obtain ⟨i, j, spans⟩ := faithful.placed.spans p member
  obtain ⟨a, first, start⟩ := Window.sample_of_indexOf? _ _ _ spans.start
  obtain ⟨b, last, stop⟩ := Window.sample_of_indexOf? _ _ _ spans.stop
  exact ⟨i, j, spans.locate?, spans.ordered, a, b, first, last, start, stop,
    (faithful.fitted p member).rise_eq spans faithful.sound first last⟩

/-! A step of one volt, which is over when the samples before it begin to leave the window. -/

namespace Plateau

noncomputable def settings : MeterSettings ℝ := { span := Duration.ofSeconds 5, gap := 1 }

private theorem built : Meter.ofSettings settings [] = .ok (Meter.start settings Table.empty) := by
  have threshold : Scalar.isPositive settings.threshold = true :=
    (Scalar.Real.isPositive_iff _).mpr (by norm_num [settings])
  have factor : Scalar.isPositive settings.outlierFactor = true :=
    (Scalar.Real.isPositive_iff _).mpr (by norm_num [settings])
  have valid : settings.fault? = none := by
    rw [MeterSettings.fault?, threshold, factor]
    rfl
  rw [Meter.ofSettings, valid]
  rfl

noncomputable def second (n : Nat) (y : ℝ) : Sample ℝ := .plain (Duration.ofSeconds n) y

noncomputable def stream : List (Sample ℝ) :=
  [second 0 0, second 1 0, second 2 1, second 3 1, second 4 1, second 5 1]

noncomputable def after (k : Nat) : Meter ℝ :=
  (stream.take k).foldl Meter.feed (Meter.start settings Table.empty)

private theorem rate (n : Nat) (y z : ℝ) : Window.rateBetween (second n y) (second (n + 1) z) = z - y := by
  have step : (Duration.secondsBetween (Duration.ofSeconds n) (Duration.ofSeconds (n + 1)) : ℝ) = 1 := by
    rw [Duration.secondsBetween, Duration.ofSeconds, Duration.ofSeconds, Nat.succ_mul,
      Nat.add_sub_cancel_left, Duration.seconds_real]
    norm_num [Duration.perSecond]
  change (z - y) / Duration.secondsBetween (Duration.ofSeconds n) (Duration.ofSeconds (n + 1)) = z - y
  rw [step, div_one]

private theorem hot : Scalar.lt settings.threshold (Window.rateBetween (second 1 0) (second 2 1)) = true := by
  rw [rate]
  exact (Scalar.Real.lt_iff _ _).mpr (by norm_num [settings])

private theorem cold (n : Nat) (y : ℝ) :
    Scalar.lt settings.threshold (Window.rateBetween (second n y) (second (n + 1) y)) = false := by
  rw [rate, sub_self]
  exact (Scalar.Real.lt_eq_false_iff _ _).mpr (by norm_num [settings])

private theorem begun_of_cold (n : Nat) (y : ℝ) {m : Meter ℝ} (same : m.settings = settings) (w : Window ℝ) :
    m.begun w (second n y) (second (n + 1) y) = [] := by
  rw [Meter.begun, same, cold]
  rfl

private theorem settled (k : Nat) : (after k).pulses.Settled :=
  (Meter.feed_all_took (by decide) Table.empty _).1.settled

/-- After `k` samples there is one pulse, along the step. -/
def Tracked (k : Nat) (phase : Phase) : Prop :=
  ∃ p, (after k).pulses = [p] ∧ p.phase = phase ∧ p.start = (second 1 0).time ∧
    p.stop = (second 2 1).time

private theorem quiet : (after 2).pulses = [] := by
  have follows := (after 1).follow_cases (after 2).window 0 _ _ (settled 1) rfl rfl
  exact (follows.unique (.rest [] (by simp))).trans (congrArg (· ++ []) (begun_of_cold 0 0 rfl _))

private theorem begun : Tracked 3 .growing := by
  have follows : (after 2).Follows (after 3).window (second 1 0) (second 2 1) [] (after 3).pulses := by
    rw [← quiet]
    exact (after 2).follow_cases (after 3).window 0 _ _ (settled 2) rfl rfl
  have one : (after 2).begun (after 3).window (second 1 0) (second 2 1) = [_] := if_pos hot
  exact ⟨_, (follows.unique (.rest [] (by simp))).trans (congrArg (· ++ []) one), rfl, rfl, rfl⟩

private theorem rests : Tracked 4 .growing := by
  obtain ⟨p, alone, growing, start, stop⟩ := begun
  have follows : (after 3).Follows (after 4).window (second 2 1) (second 3 1) [p] (after 4).pulses := by
    rw [← alone]
    exact (after 3).follow_cases (after 4).window 0 _ _ (settled 3) rfl rfl
  have near : ((after 4).window.countAfter? p.stop).getD 0 = 1 := by
    rw [stop]
    rfl
  have grown : (after 3).grown (after 4).window (second 2 1) (second 3 1) p =
      (after 3).fitPulse (after 4).window p := by
    rw [Meter.grown]
    exact congrArg ((after 3).fitPulse _) (if_neg (Bool.not_eq_true _ ▸ cold 2 1))
  refine ⟨_, follows.unique (.goOn p [] growing (by simp) (Nat.le_of_eq near)), ?_⟩
  rw [grown]
  exact ⟨growing, start, stop⟩

private theorem ended : Tracked 5 .frozen := by
  obtain ⟨p, alone, growing, start, stop⟩ := rests
  have follows : (after 4).Follows (after 5).window (second 3 1) (second 4 1) [p] (after 5).pulses := by
    rw [← alone]
    exact (after 4).follow_cases (after 5).window 0 _ _ (settled 4) rfl rfl
  have far : ((after 5).window.countAfter? p.stop).getD 0 = 2 := by
    rw [stop]
    rfl
  have long : ¬ p.length < Duration.ofSeconds 1 := by
    rw [Pulse.length, start, stop]
    decide
  have retired : (after 4).retired (after 5).window p =
      [(after 4).fitPulse (after 5).window { p with phase := .frozen }] := if_neg long
  refine ⟨(after 4).fitPulse (after 5).window { p with phase := .frozen }, ?_, rfl, start, stop⟩
  rw [follows.unique (.finish p [] growing (by simp) (Nat.le_of_eq far.symm)), retired,
    begun_of_cold 3 1 rfl]
  rfl

private theorem stays : Tracked 6 .frozen := by
  obtain ⟨p, alone, frozen, start, stop⟩ := ended
  have kept : (after 5).keptPulses (after 6).window 1 = [p] := by
    have oldest : (after 6).window.oldest? = some (second 1 0) := rfl
    have young : (second 1 0).time ≤ p.start := Nat.le_of_eq start.symm
    rw [Meter.keptPulses, if_neg (by decide), alone, Pulses.dropExpired, oldest]
    exact List.filter_cons_of_pos (decide_eq_true young)
  have follows : (after 5).Follows (after 6).window (second 4 1) (second 5 1) [p] (after 6).pulses := by
    rw [← kept]
    exact (after 5).follow_cases (after 6).window 1 _ _ (settled 5) rfl rfl
  refine ⟨p, ?_, frozen, start, stop⟩
  rw [follows.unique (.rest [p] (by simp [frozen])), begun_of_cold 4 1 rfl]
  rfl

end Plateau

theorem rises_telescope_plateau :
    let now := operate { meter := Plateau.after 0 } (Plateau.stream.map .ingest)
    Meter.ofSettings Plateau.settings [] = .ok (Plateau.after 0) ∧
      now.meter.window.samples = Plateau.stream.tail ∧
      ∃ p, now.meter.pulses = [p] ∧ p.phase = .frozen ∧
        p.locate? now.meter.window.samples = some ⟨0, 1, p⟩ ∧ p.rise = 1 := by
  intro now
  have fed : now.meter = Plateau.after 6 := rfl
  obtain ⟨trace, passes⟩ := operate_reached { meter := Plateau.after 0 } (Plateau.stream.map .ingest)
  obtain ⟨p, alone, frozen, start, stop⟩ := Plateau.stays
  have located : p.locate? now.meter.window.samples = some ⟨0, 1, p⟩ := by
    rw [Pulse.locate?, start, stop]
    rfl
  have member : p ∈ now.meter.pulses := by
    rw [fed, alone]
    exact List.mem_singleton_self p
  obtain ⟨first, last, there, _, a, b, firstAt, lastAt, _, _, rise⟩ :=
    rises_telescope Plateau.built _ passes p member
  obtain ⟨rfl, rfl, _⟩ := LocatedPulse.mk.inj (Option.some.inj (located.symm.trans there))
  obtain rfl : Plateau.second 1 0 = a := Option.some.inj firstAt
  obtain rfl : Plateau.second 2 1 = b := Option.some.inj lastAt
  exact ⟨Plateau.built, rfl, p, alone, frozen, located, rise.trans (sub_zero _)⟩

end Session
end Calorimetry
