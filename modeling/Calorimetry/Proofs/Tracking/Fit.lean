import Calorimetry.Proofs.Tracking.Consistency

/-! The fit that a pulse carries is the one of the samples that can be seen. A frozen pulse was fitted
long ago, in a window that has moved since, but the samples between its ends and the rates between
them have stayed the same. -/

namespace Calorimetry
variable {α : Type} [Scalar α]

/-- The pulse carries the fit of the samples between its ends, in the window as it is. -/
def Pulse.FittedIn (k : α) (w : Window α) (p : Pulse α) : Prop :=
  ∀ i j, w.indexOf? p.start = some i → w.indexOf? p.stop = some j →
    p.fit.get = PulseFit.ofStretch k p.start (w.samples.extract i (j + 1)) (w.rates.extract i j)

private theorem Pulse.FittedIn.entered {k threshold : α} {w w' : Window α} {s : Sample α} {n i j : Nat}
    {p : Pulse α} (fitted : p.FittedIn k w) (spans : p.Spans threshold w i j)
    (entered : w.Entered w' s n) (sound : w.Sound) (stays : n ≤ i) : p.FittedIn k w' := by
  intro i' j' foundStart foundStop
  have ordered := spans.ordered
  have bound := w.indexOf?_lt _ _ spans.stop
  have after := spans.entered entered sound stays
  cases Option.some.inj (after.start.symm.trans foundStart)
  cases Option.some.inj (after.stop.symm.trans foundStop)
  rw [fitted i j spans.start spans.stop, show j - n + 1 = j + 1 - n by omega,
    entered.samples_extract stays (by omega), entered.rates_extract sound stays bound]

namespace Meter
variable {m : Meter α} {c : MeterSettings α} {w : Window α} {a b : Sample α}

private theorem fitPulse_fitted (sound : w.Sound) (p : Pulse α)
    (ordered : ∀ i j, w.indexOf? p.start = some i → w.indexOf? p.stop = some j → i ≤ j) :
    (m.fitPulse w p).FittedIn m.settings.outlierFactor w := by
  intro i j foundStart foundStop
  have between : w.between? p.start p.stop = _ :=
    sound.between?_eq foundStart foundStop (ordered i j foundStart foundStop)
  simp [fitPulse, Pulse.annotate, Pulse.refit, Thunk.get, between]

/-- A pulse after a step was there before it, or has just been fitted. -/
theorem Follows.kept_or_fitted {kept next : Pulses α} (follows : m.Follows w a b kept next) :
    ∀ q ∈ next, q ∈ kept ∨ ∃ p, q = m.fitPulse w p := by
  have begins : ∀ q ∈ m.begun w a b, ∃ p, q = m.fitPulse w p := by
    intro q member
    rw [begun] at member
    split at member
    · exact ⟨_, List.mem_singleton.mp member⟩
    · exact absurd member List.not_mem_nil
  intro q member
  cases follows with
  | rest _ frozen =>
    rcases List.mem_append.mp member with new | old
    · exact Or.inr (begins q new)
    · exact Or.inl old
  | goOn p older growing frozen near =>
    rcases List.mem_cons.mp member with rfl | behind
    · exact Or.inr ⟨_, rfl⟩
    · exact Or.inl (List.mem_cons_of_mem p behind)
  | finish p older growing frozen far =>
    rcases List.mem_append.mp member with new | rest
    · exact Or.inr (begins q new)
    rcases List.mem_append.mp rest with ended | behind
    · rw [retired] at ended
      split at ended
      · exact absurd ended List.not_mem_nil
      · exact Or.inr ⟨_, List.mem_singleton.mp ended⟩
    · exact Or.inl (List.mem_cons_of_mem p behind)

private theorem record_fitted {next : Meter α} {x : Sample α} (consistent : m.Consistent c)
    (positive : 0 < c.span) (accepted : m.record x = .ok next)
    (fitted : ∀ p ∈ m.pulses, p.FittedIn c.outlierFactor m.window) :
    ∀ p ∈ next.pulses, p.FittedIn c.outlierFactor next.window := by
  have after := record_consistent consistent positive accepted
  obtain ⟨n, entered, settings, _, step⟩ := record_cases consistent positive accepted
  intro q member
  rcases step with ⟨_, _, none⟩ | ⟨a, newest, follows⟩
  · rw [none] at member
    exact absurd member List.not_mem_nil
  rcases follows.kept_or_fitted q member with kept | ⟨p, rfl⟩
  · have before := (m.keptPulses_sublist next.window n).subset kept
    obtain ⟨i, j, spans⟩ := consistent.placed.spans q before
    have stays := keptPulses_stay entered consistent.sound q kept i spans.start
    exact (fitted q before).entered spans entered consistent.sound stays
  · rw [← consistent.settings]
    apply fitPulse_fitted after.sound
    intro i j foundStart foundStop
    obtain ⟨i', j', spans⟩ := after.placed.spans _ member
    cases Option.some.inj (spans.start.symm.trans foundStart)
    cases Option.some.inj (spans.stop.symm.trans foundStop)
    exact Nat.le_of_lt spans.ordered

/-- A consistent measurement whose pulses all carry the fit of what can be seen of them. -/
structure Faithful (c : MeterSettings α) (m : Meter α) : Prop extends m.Consistent c where
  fitted : ∀ p ∈ m.pulses, p.FittedIn c.outlierFactor m.window

theorem start_faithful (c : MeterSettings α) (t : Table α) : (start c t).Faithful c :=
  ⟨start_consistent c t, fun _ member => absurd member List.not_mem_nil⟩

theorem Change.faithful {next : Meter α} (change : Change m next) (positive : 0 < c.span)
    (faithful : m.Faithful c) : next.Faithful c := by
  have consistent := faithful.toConsistent
  refine ⟨change.consistent positive consistent, ?_⟩
  cases change with
  | record x _ accepted => exact record_fitted consistent positive accepted faithful.fitted
  | clear => exact fun _ member => absurd member List.not_mem_nil
  | withTable t =>
    intro q member
    obtain ⟨p, present, rfl⟩ := List.mem_map.mp member
    exact faithful.fitted p present

end Meter

private theorem Session.operate_faithful {c : MeterSettings α} {points : List (Point α)} {m : Meter α}
    (built : Meter.ofSettings c points = .ok m) (ops : List (Operation α)) :
    (operate { meter := m } ops).meter.Faithful c := by
  obtain ⟨valid, t, _, rfl⟩ := Meter.ofSettings_eq_ok built
  apply operate_keeps _ (Meter.start_faithful c t)
  intro m next change faithful
  exact change.faithful (MeterSettings.span_pos valid) faithful

def Sample.intervals (samples : List (Sample α)) : List α :=
  List.zipWith (fun a b => Duration.secondsBetween a.time b.time) samples samples.tail

theorem PulseFit.addRises_eq (rates : List α) (samples : List (Sample α)) (sum : α) :
    PulseFit.addRises sum rates samples =
      (List.zipWith (· * ·) rates (Sample.intervals samples)).foldl (· + ·) sum := by
  induction rates generalizing samples sum with
  | nil => simp [addRises]
  | cons rate rates ih =>
    rcases samples with _ | ⟨a, _ | ⟨b, rest⟩⟩
    · simp [addRises, Sample.intervals]
    · simp [addRises, Sample.intervals]
    · exact ih (b :: rest) _

/-- Every tracked pulse has the slope of the line through the samples between its ends, with times
from its start, and for its rise the sum of rate times step over them, whatever was done to the
session since it was fitted. -/
theorem pulses_carry_visible_fits {c : MeterSettings α} {points : List (Point α)} {m : Meter α}
    (built : Meter.ofSettings c points = .ok m) (ops : List (Session.Operation α)) :
    let w := (Session.operate { meter := m } ops).meter.window
    ∀ p ∈ (Session.operate { meter := m } ops).meter.pulses, ∀ first last,
      w.indexOf? p.start = some first → w.indexOf? p.stop = some last →
        let stretch := w.samples.extract first (last + 1)
        let line := LineFit.ofPoints c.outlierFactor
          (stretch.map fun s => (Duration.secondsBetween p.start s.time, s.reading))
        p.slope = line.slope ∧ p.degenerate = line.degenerate ∧
          p.rise = Scalar.sum
            (List.zipWith (· * ·) (w.rates.extract first last) (Sample.intervals stretch)) := by
  intro w p member first last foundStart foundStop stretch line
  have faithful := Session.operate_faithful built ops
  have fit := faithful.fitted p member first last foundStart foundStop
  refine ⟨congrArg PulseFit.slope fit, congrArg PulseFit.degenerate fit, ?_⟩
  exact (congrArg PulseFit.rise fit).trans (PulseFit.addRises_eq _ _ _)

-- The older of the two pulses was frozen before the first two samples left.
theorem pulses_carry_visible_fits_two_heatings :
    Meter.ofSettings TwoHeatings.settings [] = .ok (Meter.start TwoHeatings.settings Table.empty) ∧
      ∃ p ∈ TwoHeatings.reached.pulses, p.phase = .frozen ∧
        TwoHeatings.reached.window.indexOf? p.start = some 0 ∧
        TwoHeatings.reached.window.indexOf? p.stop = some 1 ∧
          let stretch := TwoHeatings.reached.window.samples.extract 0 2
          let line := LineFit.ofPoints TwoHeatings.settings.outlierFactor
            (stretch.map fun s => (Duration.secondsBetween p.start s.time, s.reading))
          p.slope = line.slope ∧ p.degenerate = line.degenerate ∧
            p.rise = Scalar.sum (List.zipWith (· * ·) (TwoHeatings.reached.window.rates.extract 0 1)
              (Sample.intervals stretch)) := by
  have present : ∃ p ∈ TwoHeatings.reached.pulses, p.phase = .frozen ∧
      TwoHeatings.reached.window.indexOf? p.start = some 0 ∧
      TwoHeatings.reached.window.indexOf? p.stop = some 1 := by decide
  obtain ⟨p, member, frozen, start, stop⟩ := present
  refine ⟨TwoHeatings.built, p, member, frozen, start, stop, ?_⟩
  exact pulses_carry_visible_fits TwoHeatings.built TwoHeatings.operations p member 0 1 start stop

end Calorimetry
