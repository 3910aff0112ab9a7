import Calorimetry.Proofs.Stream
import Mathlib.Data.List.Forall2

/-! Two recordings of one course. In the second one times are counted from another origin, and readings are
told on another scale. If the rates, the threshold and the fits go along with the scale, two measurements
that take in the two recordings stay alike: they refuse the same samples, lose the same samples, and
follow the same pulses. -/

namespace Calorimetry
variable {α : Type}

/-- How a second recording is told: the origin of its times lies `delay` earlier, and `scale` is to rates
what `reading` is to readings. -/
structure Rendition (α : Type) where
  delay : Duration
  reading : α → α
  scale : α → α

namespace Rendition
variable (v : Rendition α)

def sample (s : Sample α) : Sample α :=
  { s with time := s.time + v.delay, reading := v.reading s.reading }

def fit (f : PulseFit α) : PulseFit α := ⟨v.scale f.slope, v.scale f.rise, f.degenerate⟩

/-- `q` is `p` in the second recording, its power apart. -/
structure Renders (p q : Pulse α) : Prop where
  start : q.start = p.start + v.delay
  stop : q.stop = p.stop + v.delay
  rate : q.rate = v.scale p.rate
  phase : q.phase = p.phase
  fit : q.fit.get = v.fit p.fit.get

/-- `w'` is `w` in the second recording. -/
structure Views (w w' : Window α) : Prop where
  span : w'.span = w.span
  samples : w'.samples = w.samples.map v.sample
  rates : w'.rates = w.rates.map v.scale

variable [Scalar α]

/-- With the settings `c'` the second recording is measured as the first one is with `c`. -/
structure Suits (c c' : MeterSettings α) : Prop where
  span : c'.span = c.span
  minimum : c'.minimum = c.minimum
  reach : c'.reach = c.reach
  hot : ∀ rate, Scalar.lt c'.threshold (v.scale rate) = Scalar.lt c.threshold rate
  finite : ∀ y, Scalar.isFinite (v.reading y) = Scalar.isFinite y
  zero : v.scale 0 = 0
  sum : v.scale Scalar.emptySum = Scalar.emptySum
  quotient : ∀ y z t, (v.reading z - v.reading y) / t = v.scale ((z - y) / t)
  adds : ∀ sum rate t, v.scale sum + v.scale rate * t = v.scale (sum + rate * t)
  line : ∀ points,
    let here := LineFit.ofPoints c.outlierFactor points
    let there := LineFit.ofPoints c'.outlierFactor (points.map (Prod.map id v.reading))
    there.slope = v.scale here.slope ∧ there.degenerate = here.degenerate

variable {v} {c c' : MeterSettings α} {w w' : Window α}

omit [Scalar α] in
@[simp]
private theorem sample_time (v : Rendition α) (s : Sample α) : (v.sample s).time = s.time + v.delay := rfl

private theorem secondsBetween_eq (v : Rendition α) (start stop : Duration) :
    (Duration.secondsBetween (start + v.delay) (stop + v.delay) : α) =
      Duration.secondsBetween start stop :=
  congrArg Duration.seconds (Nat.add_sub_add_right stop v.delay start)

/-! ## Rates and fits -/

private theorem Suits.rate (suits : v.Suits c c') (a b : Sample α) :
    Window.rateBetween (v.sample a) (v.sample b) = v.scale (Window.rateBetween a b) := by
  rw [Window.rateBetween, Window.rateBetween, ← suits.quotient, sample_time, sample_time,
    v.secondsBetween_eq]
  rfl

private theorem timedReadings_eq (v : Rendition α) (start : Duration) (samples : List (Sample α)) :
    PulseFit.timedReadings (start + v.delay) (samples.map v.sample) =
      (PulseFit.timedReadings start samples).map (Prod.map id v.reading) := by
  rw [PulseFit.timedReadings, PulseFit.timedReadings, List.map_map, List.map_map]
  refine List.map_congr_left fun s _ => ?_
  exact Prod.ext (v.secondsBetween_eq start s.time) rfl

private theorem Suits.addRises (suits : v.Suits c c') (rates : List α) (samples : List (Sample α)) (sum : α) :
    PulseFit.addRises (v.scale sum) (rates.map v.scale) (samples.map v.sample) =
      v.scale (PulseFit.addRises sum rates samples) := by
  induction rates generalizing samples sum with
  | nil => simp [PulseFit.addRises]
  | cons rate rates ih =>
    rcases samples with _ | ⟨a, _ | ⟨b, rest⟩⟩
    · simp [PulseFit.addRises]
    · simp [PulseFit.addRises]
    · rw [PulseFit.addRises, ← ih (b :: rest), ← suits.adds, ← v.secondsBetween_eq]
      rfl

private theorem Suits.fit (suits : v.Suits c c') (start : Duration) (samples : List (Sample α))
    (rates : List α) :
    PulseFit.ofStretch c'.outlierFactor (start + v.delay) (samples.map v.sample) (rates.map v.scale) =
      v.fit (PulseFit.ofStretch c.outlierFactor start samples rates) := by
  obtain ⟨slope, degenerate⟩ := suits.line (PulseFit.timedReadings start samples)
  have rise := suits.addRises rates samples Scalar.emptySum
  rw [suits.sum] at rise
  rw [PulseFit.ofStretch, v.timedReadings_eq, slope, rise, degenerate]
  rfl

/-! ## Windows -/

namespace Views

section

omit [Scalar α]

private theorem newest? (views : v.Views w w') : w'.newest? = w.newest?.map v.sample := by
  rw [Window.newest?_eq, Window.newest?_eq, views.samples, List.getLast?_map]

private theorem oldest? (views : v.Views w w') : w'.oldest? = w.oldest?.map v.sample := by
  rw [Window.oldest?_eq, Window.oldest?_eq, views.samples, List.head?_map]

private theorem latestRate? (views : v.Views w w') : w'.latestRate? = w.latestRate?.map v.scale := by
  rw [Window.latestRate?_eq, Window.latestRate?_eq, views.rates, List.getLast?_map]

private theorem lastTwo? (views : v.Views w w') :
    w'.lastTwo? = w.lastTwo?.map (Prod.map v.sample v.sample) := by
  rw [Window.lastTwo?, Window.lastTwo?, ← Queue.take_toList, ← Queue.take_toList, Queue.toList_reverse,
    Queue.toList_reverse, ← Window.samples, ← Window.samples, views.samples, ← List.map_reverse,
    ← List.map_take]
  rcases w.samples.reverse.take 2 with _ | ⟨b, _ | ⟨a, _ | _⟩⟩ <;> rfl

private theorem sample_time_eq (v : Rendition α) (t : Duration) :
    (fun s : Sample α => decide (s.time = t + v.delay)) ∘ v.sample = fun s => decide (s.time = t) := by
  funext s
  exact decide_eq_decide.mpr Nat.add_right_cancel_iff

private theorem countAfter? (views : v.Views w w') (t : Duration) :
    w'.countAfter? (t + v.delay) = w.countAfter? t := by
  rw [Window.countAfter?_eq, Window.countAfter?_eq, views.samples, ← List.map_reverse,
    List.findIdx?_map, sample_time_eq]

private theorem indexOf? (views : v.Views w w') (t : Duration) :
    Sample.indexOf? w'.samples (t + v.delay) = Sample.indexOf? w.samples t := by
  rw [Sample.indexOf?, Sample.indexOf?, views.samples, List.findIdx?_map, sample_time_eq]

private theorem between? (views : v.Views w w') (start stop : Duration) :
    w'.between? (start + v.delay) (stop + v.delay) =
      (w.between? start stop).map (Prod.map (List.map v.sample) (List.map v.scale)) := by
  have starts := views.countAfter? start
  have stops := views.countAfter? stop
  cases foundStart : w.countAfter? start with
  | none => rw [Window.between?, Window.between?, starts, foundStart, Option.map_none]
  | some afterStart =>
    cases foundStop : w.countAfter? stop with
    | none => rw [Window.between?, Window.between?, starts, stops, foundStart, foundStop, Option.map_none]
    | some afterStop =>
      rw [w.between?_eq_some foundStart foundStop,
        w'.between?_eq_some (starts.trans foundStart) (stops.trans foundStop), views.samples, views.rates]
      simp only [Option.map_some, Prod.map_apply, List.map_reverse, List.map_drop, List.map_take]

/-- Before one span has passed nothing expires. A delay may bring the second recording beyond that, but then
nothing in it is old enough. -/
private theorem expired (views : v.Views w w') (latest : Duration) :
    w'.expired (latest + v.delay) = w.expired latest := by
  rw [Window.expired_eq, Window.expired_eq, views.samples, views.span, List.takeWhile_map,
    List.length_map]
  -- The subtraction is cut off at zero, so the cutoff moves with the times in the first case only.
  by_cases reached : w.span ≤ latest
  · have still : w.span ≤ latest + v.delay := Nat.le_add_right_of_le reached
    have same : (fun s : Sample α => decide (s.time ≤ latest + v.delay - w.span)) ∘ v.sample =
        fun s => decide (s.time ≤ latest - w.span) := by
      funext s
      have cutoff : latest + v.delay - w.span = latest - w.span + v.delay :=
        Nat.sub_add_comm reached
      exact decide_eq_decide.mpr (cutoff ▸ Nat.add_le_add_iff_right)
    rw [if_pos reached, if_pos still, same]
  · rw [if_neg reached]
    split
    · next still =>
      have still : w.span ≤ latest + v.delay := still
      have young : (fun s : Sample α => decide (s.time ≤ latest + v.delay - w.span)) ∘ v.sample =
          fun _ => false := by
        funext s
        apply decide_eq_false
        intro old
        have whole : s.time + v.delay + w.span ≤ latest + v.delay := Nat.add_le_of_le_sub still old
        rw [Nat.add_right_comm] at whole
        exact reached (Nat.le_trans (Nat.le_add_left _ _) (Nat.le_of_add_le_add_right whole))
      rw [young]
      cases w.samples <;> rfl
    · rfl

private theorem dropOldest (views : v.Views w w') (n : Nat) : v.Views (w.dropOldest n) (w'.dropOldest n) where
  span := views.span
  samples := by rw [Window.samples_dropOldest, Window.samples_dropOldest, views.samples, List.map_drop]
  rates := by rw [Window.rates_dropOldest, Window.rates_dropOldest, views.rates, List.map_drop]

end

private theorem extend (views : v.Views w w') (suits : v.Suits c c') (s : Sample α) :
    v.Views (w.extend s) (w'.extend (v.sample s)) where
  span := views.span
  samples := by
    rw [Window.samples_extend, Window.samples_extend, views.samples, List.map_append, List.map_singleton]
  rates := by
    rw [Window.rates_extend, Window.rates_extend, views.rates, views.newest?, List.map_append]
    cases w.newest? with
    | none => rfl
    | some last => exact congrArg (fun r => _ ++ [r]) (suits.rate last s)

private theorem anomaly?_eq_none_iff (views : v.Views w w') (suits : v.Suits c c') (s : Sample α) :
    w'.anomaly? (v.sample s) = none ↔ w.anomaly? s = none := by
  rw [Window.anomaly?_eq_none_iff, Window.anomaly?_eq_none_iff, views.newest?]
  refine and_congr (Eq.congr_left (suits.finite s.reading)) ?_
  cases w.newest? with
  | none => simp
  | some last => simp [Rendition.sample]

private theorem push (views : v.Views w w') (suits : v.Suits c c') (s : Sample α) :
    (∃ e e', w.push s = .error e ∧ w'.push (v.sample s) = .error e') ∨
      ∃ next next' n, w.push s = .ok (next, n) ∧ w'.push (v.sample s) = .ok (next', n) ∧
        v.Views next next' := by
  have alike := views.anomaly?_eq_none_iff suits s
  have longer := views.extend suits s
  rw [Window.push, Window.push]
  cases here : w.anomaly? s with
  | some e =>
    cases there : w'.anomaly? (v.sample s) with
    | some e' => exact .inl ⟨e, e', rfl, rfl⟩
    | none => exact absurd (alike.mp there) (by simp [here])
  | none =>
    rw [alike.mpr here]
    have leave : (w'.extend (v.sample s)).expired (v.sample s).time = (w.extend s).expired s.time :=
      longer.expired s.time
    refine .inr ⟨_, _, _, rfl, ?_, longer.dropOldest _⟩
    dsimp only
    rw [leave]

end Views

/-! ## Pulses -/

abbrev RendersAll (v : Rendition α) (ps qs : Pulses α) : Prop := List.Forall₂ v.Renders ps qs

variable {p q : Pulse α} {ps qs : Pulses α}

section

omit [Scalar α]

theorem Renders.length (renders : v.Renders p q) : q.length = p.length := by
  rw [Pulse.length, Pulse.length, renders.start, renders.stop]
  exact Nat.add_sub_add_right _ _ _

private theorem Renders.le_start (renders : v.Renders p q) (t : Duration) :
    t + v.delay ≤ q.start ↔ t ≤ p.start := by
  rw [renders.start]
  exact Nat.add_le_add_iff_right

private theorem RendersAll.dropExpired (alike : v.RendersAll ps qs) (views : v.Views w w') :
    v.RendersAll (ps.dropExpired w) (qs.dropExpired w') := by
  rw [Pulses.dropExpired, Pulses.dropExpired, views.oldest?]
  cases w.oldest? with
  | none => exact .nil
  | some oldest =>
    refine List.rel_filter ?_ alike
    intro p q renders
    simp only [decide_eq_true_eq]
    exact (renders.le_start oldest.time).symm

private theorem rendersAll_toList {r r' : Option (Pulse α)} (each : Option.Rel v.Renders r r') :
    v.RendersAll r.toList r'.toList := by
  cases each with
  | none => exact .nil
  | some renders => exact .cons renders .nil

private theorem RendersAll.revise {f g : Pulse α → Option (Pulse α)}
    (alike : v.RendersAll ps qs) (each : ∀ p q, v.Renders p q → Option.Rel v.Renders (f p) (g q)) :
    v.RendersAll (ps.revise f) (qs.revise g) := by
  induction alike with
  | nil => exact .nil
  | @cons p q older older' renders rest ih =>
    rw [Pulses.revise, Pulses.revise, renders.phase]
    split
    · exact .cons renders rest
    · exact List.rel_append (rendersAll_toList (each p q renders)) ih

private theorem map_slope_eq {r r' : Option (Pulse α)} (each : Option.Rel v.Renders r r') :
    r'.map Pulse.slope = (r.map Pulse.slope).map v.scale := by
  cases each with
  | none => rfl
  | some renders => exact congrArg (some ∘ PulseFit.slope) renders.fit

private theorem RendersAll.find? (alike : v.RendersAll ps qs) {f g : Pulse α → Bool}
    (same : ∀ p q, v.Renders p q → g q = f p) : Option.Rel v.Renders (ps.find? f) (qs.find? g) := by
  induction alike with
  | nil => exact .none
  | @cons p q older older' renders rest ih =>
    rw [List.find?_cons, List.find?_cons, same p q renders]
    split
    · exact .some renders
    · exact ih

private theorem Renders.settleOne (renders : v.Renders p q) (minimum : Duration) :
    Option.Rel v.Renders (Pulses.settleOne minimum p) (Pulses.settleOne minimum q) := by
  rw [Pulses.settleOne, Pulses.settleOne, renders.phase, renders.length]
  split
  · exact .some renders
  split
  · exact .none
  · exact .some ⟨renders.start, renders.stop, renders.rate, rfl, renders.fit⟩

end

private theorem Renders.begin (suits : v.Suits c c') (a b : Sample α) (rate : α) :
    v.Renders (.begin a.time b.time rate)
      (.begin (v.sample a).time (v.sample b).time (v.scale rate)) where
  start := rfl
  stop := rfl
  rate := rfl
  phase := rfl
  fit := by
    change (⟨0, 0, false⟩ : PulseFit α) = ⟨v.scale 0, v.scale 0, false⟩
    rw [suits.zero]

private theorem RendersAll.advance (alike : v.RendersAll ps qs) (suits : v.Suits c c')
    (views : v.Views w w') : v.RendersAll (ps.advance c w) (qs.advance c' w') := by
  rw [Pulses.advance, Pulses.advance, views.latestRate?, views.lastTwo?]
  cases w.latestRate? with
  | none => exact alike
  | some rate =>
    rcases w.lastTwo? with _ | ⟨a, b⟩
    · exact alike
    have begun {ps qs : Pulses α} (older : v.RendersAll ps qs) :
        v.RendersAll (if Scalar.lt c.threshold rate then .begin a.time b.time rate :: ps else ps)
          (if Scalar.lt c'.threshold (v.scale rate) then
            .begin (v.sample a).time (v.sample b).time (v.scale rate) :: qs else qs) := by
      rw [suits.hot]
      split
      · exact .cons (.begin suits a b rate) older
      · exact older
    cases alike with
    | nil => exact begun .nil
    | @cons p q older older' renders rest =>
      dsimp only [Option.map_some, Prod.map_apply]
      rw [renders.phase, renders.stop, views.countAfter?, suits.reach]
      split
      · exact begun (.cons renders rest)
      split
      · rw [suits.hot]
        split
        · exact .cons ⟨renders.start, rfl, rfl, rfl, renders.fit⟩ rest
        · exact .cons renders rest
      · exact begun (.cons ⟨renders.start, rfl, renders.rate, rfl, renders.fit⟩ rest)

private theorem Renders.refit (renders : v.Renders p q) (suits : v.Suits c c') (views : v.Views w w') :
    v.Renders (p.refit c.outlierFactor w) (q.refit c'.outlierFactor w') where
  start := renders.start
  stop := renders.stop
  rate := renders.rate
  phase := renders.phase
  fit := by
    have between := views.between? p.start p.stop
    rw [← renders.start, ← renders.stop] at between
    rw [Pulse.refit, Pulse.refit]
    simp only [Thunk.get, between]
    rcases w.between? p.start p.stop with _ | ⟨samples, rates⟩
    · exact renders.fit
    · dsimp only [Option.map_some, Prod.map_apply]
      rw [renders.start]
      exact suits.fit p.start samples rates

/-! ## Measurements -/

/-- With the settings `c'` the second recording has been measured in `m'` as far as the first one, with `c`,
in `m`. -/
structure Tells (v : Rendition α) (c c' : MeterSettings α) (m m' : Meter α) : Prop where
  settings : m.settings = c
  settings' : m'.settings = c'
  views : v.Views m.window m'.window
  pulses : v.RendersAll m.pulses m'.pulses

variable {m m' : Meter α}

theorem start_tells (suits : v.Suits c c') (t t' : Table α) :
    v.Tells c c' (.start c t) (.start c' t') where
  settings := rfl
  settings' := rfl
  views := ⟨suits.span, rfl, rfl⟩
  pulses := .nil

private theorem Tells.fitPulse (tells : v.Tells c c' m m') (suits : v.Suits c c') (views : v.Views w w')
    (renders : v.Renders p q) : v.Renders (m.fitPulse w p) (m'.fitPulse w' q) := by
  rw [Meter.fitPulse, Meter.fitPulse, tells.settings, tells.settings']
  have fitted := renders.refit suits views
  exact ⟨fitted.start, fitted.stop, fitted.rate, fitted.phase, fitted.fit⟩

private theorem Tells.follow (tells : v.Tells c c' m m') (suits : v.Suits c c') (views : v.Views w w')
    (dropped : Nat) : v.RendersAll (m.follow w dropped) (m'.follow w' dropped) := by
  have kept : v.RendersAll (m.keptPulses w dropped) (m'.keptPulses w' dropped) := by
    rw [Meter.keptPulses, Meter.keptPulses]
    split
    · exact tells.pulses
    · exact tells.pulses.dropExpired views
  have advanced := kept.advance suits views
  rw [← tells.settings, ← tells.settings'] at advanced
  have fitted := advanced.revise fun p q renders => .some (tells.fitPulse suits views renders)
  apply fitted.revise
  intro p q renders
  rw [tells.settings, tells.settings', suits.minimum]
  exact renders.settleOne c.minimum

private theorem Tells.record (tells : v.Tells c c' m m') (suits : v.Suits c c') (x : Sample α) :
    (∃ e e', m.record x = .error e ∧ m'.record (v.sample x) = .error e') ∨
      ∃ next next', m.record x = .ok next ∧ m'.record (v.sample x) = .ok next' ∧
        v.Tells c c' next next' := by
  rw [Meter.record, Meter.record]
  rcases tells.views.push suits x with ⟨e, e', here, there⟩ | ⟨w, w', n, here, there, views⟩
  · rw [here, there]
    exact .inl ⟨e, e', rfl, rfl⟩
  · rw [here, there]
    exact .inr ⟨_, _, rfl, rfl, tells.settings, tells.settings', views, tells.follow suits views n⟩

/-- A pulse is shown at the positions that it has in the first recording. -/
structure Shows (v : Rendition α) (p q : LocatedPulse α) : Prop where
  first : q.first = p.first
  last : q.last = p.last
  pulse : v.Renders p.pulse q.pulse

omit [Scalar α] in
private theorem Views.locate? (views : v.Views w w') (renders : v.Renders p q) :
    Option.Rel v.Shows (p.locate? w.samples) (q.locate? w'.samples) := by
  rw [Pulse.locate?, Pulse.locate?, renders.start, renders.stop, views.indexOf?, views.indexOf?]
  cases Sample.indexOf? w.samples p.start with
  | none => exact .none
  | some first =>
    cases Sample.indexOf? w.samples p.stop with
    | none => exact .none
    | some last => exact .some ⟨rfl, rfl, renders⟩

theorem Tells.shows (tells : v.Tells c c' m m') (suits : v.Suits c c') :
    List.Forall₂ v.Shows m.snapshot.pulses m'.snapshot.pulses := by
  have long : v.RendersAll (m.pulses.filter fun p => m.settings.minimum ≤ p.length)
      (m'.pulses.filter fun p => m'.settings.minimum ≤ p.length) := by
    refine List.rel_filter ?_ tells.pulses
    intro p q renders
    dsimp only
    rw [tells.settings, tells.settings', suits.minimum, renders.length]
  exact List.rel_filterMap (fun p q renders => tells.views.locate? renders) (List.rel_reverse long)

theorem Tells.slopeSince? (tells : v.Tells c c' m m') (suits : v.Suits c c') (t : Duration) :
    m'.slopeSince? (t + v.delay) = (m.slopeSince? t).map v.scale := by
  rw [Meter.slopeSince?, Meter.slopeSince?, tells.settings, tells.settings', suits.minimum]
  refine map_slope_eq (tells.pulses.find? ?_)
  intro p q renders
  rw [renders.length, decide_eq_decide.mpr (renders.le_start t)]

/-! ## Sessions -/

/-- The session `s'` has measured the second recording as `s` has measured the first one, and refused as many
samples. No callback of either is going to do anything to the measurement. -/
structure Accompanies (v : Rendition α) (c c' : MeterSettings α) (s s' : Session α) : Prop where
  tells : v.Tells c c' s.meter s'.meter
  passive : s.Passive
  passive' : s'.Passive
  anomalies : s'.anomalies = s.anomalies

private theorem Accompanies.ingest {s s' : Session α} (alike : v.Accompanies c c' s s')
    (suits : v.Suits c c') (x : Sample α) :
    v.Accompanies c c' (s.ingest x) (s'.ingest (v.sample x)) := by
  have here := s.ingest_rests x alike.passive
  have there := s'.ingest_rests (v.sample x) alike.passive'
  rw [Session.take] at here there
  rcases alike.tells.record suits x with ⟨e, e', refused, refused'⟩ | ⟨m, m', taken, taken', tells⟩
  · rw [refused] at here
    rw [refused'] at there
    refine ⟨?_, here.passive, there.passive, ?_⟩
    · rw [here.meter, there.meter]
      exact alike.tells
    · rw [here.anomalies, there.anomalies]
      exact congrArg (· + 1) alike.anomalies
  · rw [taken] at here
    rw [taken'] at there
    refine ⟨?_, here.passive, there.passive, ?_⟩
    · rw [here.meter, there.meter]
      exact tells
    · rw [here.anomalies, there.anomalies]
      exact alike.anomalies

theorem Accompanies.ingest_all {s s' : Session α} (alike : v.Accompanies c c' s s')
    (suits : v.Suits c c') (stream : List (Sample α)) :
    v.Accompanies c c' (stream.foldl Session.ingest s)
      ((stream.map v.sample).foldl Session.ingest s') := by
  induction stream generalizing s s' with
  | nil => exact alike
  | cons x rest ih => exact ih (alike.ingest suits x)

end Rendition
end Calorimetry
