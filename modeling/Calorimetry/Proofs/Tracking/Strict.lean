import Calorimetry.Proofs.Tracking.Fates
import Calorimetry.Proofs.Tracking.Fit
import Calorimetry.Proofs.Tracking.Positions
import Mathlib.Data.Nat.PSub

/-! Taking a sample in with nothing to fall back on. Here everything is looked up by its position, and the
computation ends where a difference would be negative, where a position is not in the window, or where no
sample has the time that is looked for. In whatever state a session is, it does not end, and it comes to
what `Meter.record` comes to. -/

namespace Calorimetry
variable {α : Type}

/-- The samples from position `i` to position `j`, which is one of them. Where `i` is one past `j`, there
are none between. -/
def Sample.stretch? (samples : List (Sample α)) (i j : Nat) : Option (List (Sample α)) :=
  if i ≤ j + 1 ∧ j < samples.length then some (samples.extract i (j + 1)) else none

variable [Scalar α]

namespace Window

def rateStrictly? (a b : Sample α) : Option α := do
  let step ← b.time.psub a.time
  return (b.reading - a.reading) / Duration.seconds step

def extendStrictly? (w : Window α) (s : Sample α) : Option (Window α) :=
  match w.newest? with
  | none => some { w with recorded := w.recorded.push s }
  | some last => do
    let rate ← rateStrictly? last s
    return { w with recorded := w.recorded.push s, derived := w.derived.push rate }

/-- What leaves the window has to be there. -/
def pushStrictly? (w : Window α) (s : Sample α) : Option (Except Anomaly (Window α × Nat)) :=
  match w.anomaly? s with
  | some a => some (.error a)
  | none => do
    let longer ← w.extendStrictly? s
    let n := longer.expired s.time
    let _ ← longer.size.psub n
    return .ok (longer.dropOldest n, n)

end Window

namespace Pulses

def beginStrictly? (c : MeterSettings α) (w : Window α) (newest : Nat) (rate : α) (ps : Pulses α) :
    Option (Pulses α) :=
  if Scalar.lt c.threshold rate then do
    let a ← w.samples[← newest.psub 1]?
    let b ← w.samples[newest]?
    return .begin a.time b.time rate :: ps
  else some ps

/-- What the newest rate does. The end of the growing pulse has to be in the window. -/
def advanceStrictly? (c : MeterSettings α) (w : Window α) (ps : Pulses α) : Option (Pulses α) :=
  match w.latestRate? with
  | none => some ps
  | some rate => do
    let newest ← w.size.psub 1
    match ps with
    | [] => beginStrictly? c w newest rate []
    | p :: older =>
      if p.phase ≠ .growing then beginStrictly? c w newest rate ps
      else
        let stop ← w.indexOf? p.stop
        let distance ← newest.psub stop
        if distance ≤ c.reach then
          if Scalar.lt c.threshold rate then
            let b ← w.samples[newest]?
            return { p with stop := b.time, rate } :: older
          else some ps
        else beginStrictly? c w newest rate ({ p with phase := .ending } :: older)

end Pulses

namespace Pulse

/-- Rate times step for the neighbours at positions `k` and `k + 1`. -/
def riseStrictly? (w : Window α) (k : Nat) : Option α := do
  let rate ← w.rates[k]?
  let a ← w.samples[k]?
  let b ← w.samples[k + 1]?
  return rate * Duration.secondsBetween a.time b.time

/-- The fit of a pulse of which both ends have to be in the window. -/
def fitStrictly? (outlierFactor : α) (w : Window α) (p : Pulse α) : Option (PulseFit α) := do
  let i ← w.indexOf? p.start
  let j ← w.indexOf? p.stop
  let samples ← Sample.stretch? w.samples i j
  let rises ← (List.range' i (j - i)).mapM (riseStrictly? w)
  let line := LineFit.ofPoints outlierFactor (PulseFit.timedReadings p.start samples)
  return ⟨line.slope, Scalar.sum rises, line.degenerate⟩

end Pulse

namespace Meter

/-- A pulse that is not frozen is fitted. -/
def revisedStrictly? (m : Meter α) (w : Window α) (p : Pulse α) : Option (Pulse α) :=
  if p.takesFit then do
    let fit ← p.fitStrictly? m.settings.outlierFactor w
    return { p with fit := .pure fit }.annotate m.table
  else some p

/-- Every pulse is looked at, whether anything has left the window or not. -/
def recordStrictly? (m : Meter α) (s : Sample α) : Option (Except Anomaly (Meter α)) := do
  match ← m.window.pushStrictly? s with
  | .error a => return .error a
  | .ok (w, _) =>
    let advanced ← (m.pulses.dropExpired w).advanceStrictly? m.settings w
    let revised ← advanced.mapM (m.revisedStrictly? w)
    return .ok { m with window := w, pulses := Pulses.settle m.settings.minimum revised }

end Meter

/-! ## Walks along lists -/

section
variable {β γ : Type}

private theorem mapM_eq_map {f : β → Option γ} {g : β → γ} {xs : List β}
    (defined : ∀ x ∈ xs, f x = some (g x)) : xs.mapM f = some (xs.map g) := by
  induction xs with
  | nil => rfl
  | cons x rest ih =>
    obtain ⟨first, others⟩ := List.forall_mem_cons.mp defined
    rw [List.mapM_cons, first, ih others]
    rfl

private theorem mapM_getElem? (xs : List β) (i n : Nat) (bound : i + n ≤ xs.length) :
    (List.range' i n).mapM (xs[·]?) = some (xs.extract i (i + n)) := by
  induction n generalizing i with
  | zero => simp
  | succ n ih =>
    have inside : i < xs.length := by omega
    have cut : xs.extract i (i + (n + 1)) = xs[i] :: xs.extract (i + 1) (i + 1 + n) := by
      simp only [List.extract_eq_take_drop, Nat.add_sub_cancel_left]
      rw [List.drop_eq_getElem_cons inside, List.take_succ_cons]
    rw [List.range'_succ, List.mapM_cons, List.getElem?_eq_getElem inside, ih (i + 1) (by omega), cut]
    rfl

end

/-! ## The window -/

namespace Window

private theorem extendStrictly?_eq (w : Window α) (s : Sample α)
    (later : ∀ last, w.newest? = some last → last.time < s.time) :
    w.extendStrictly? s = some (w.extend s) := by
  rw [extendStrictly?, extend]
  cases newest : w.newest? with
  | none => rfl
  | some last =>
    have step := Nat.psub_eq_sub (Nat.le_of_lt (later last newest))
    simp [rateStrictly?, step, rateBetween, Duration.secondsBetween]

omit [Scalar α] in
private theorem expired_le_size (w : Window α) (latest : Duration) : w.expired latest ≤ w.size := by
  rw [expired_eq, size_eq]
  split
  · exact (List.takeWhile_prefix _).length_le
  · exact Nat.zero_le _

private theorem pushStrictly?_eq (w : Window α) (s : Sample α) : w.pushStrictly? s = some (w.push s) := by
  rw [pushStrictly?, push]
  cases judged : w.anomaly? s with
  | some a => rfl
  | none =>
    have later := ((w.anomaly?_eq_none_iff s).mp judged).2
    have dropped := Nat.psub_eq_sub (expired_le_size (w.extend s) s.time)
    simp [extendStrictly?_eq w s later, dropped]

end Window

/-! ## The pulses -/

namespace Pulses
variable {c : MeterSettings α} {w : Window α} {a b : Sample α}

/-- The pulses that the newest rate begins, before they are fitted. -/
def beginning (c : MeterSettings α) (a b : Sample α) : Pulses α :=
  let rate := Window.rateBetween a b
  if Scalar.lt c.threshold rate then [.begin a.time b.time rate] else []

private theorem beginStrictly?_eq (newest : Meter.Newest w a b) (ps : Pulses α) :
    beginStrictly? c w (w.size - 1) (Window.rateBetween a b) ps = some (beginning c a b ++ ps) := by
  have two := newest.two
  have before : (w.size - 1).psub 1 = some (w.size - 2) := Nat.psub_eq_sub (by omega)
  rw [beginStrictly?, beginning, before]
  split
  · simp [newest.first, newest.second]
  · rfl

private theorem advance_cases (last : w.lastTwo? = some (a, b))
    (latest : w.latestRate? = some (Window.rateBetween a b)) (ps : Pulses α) :
    (∀ p, ps.head? = some p → p.phase ≠ .growing) ∧ ps.advance c w = beginning c a b ++ ps ∨
      ∃ p older, ps = p :: older ∧ p.phase = .growing ∧
        ((w.countAfter? p.stop).getD 0 ≤ c.reach ∧ ps.advance c w =
            (if Scalar.lt c.threshold (Window.rateBetween a b) then
              { p with stop := b.time, rate := Window.rateBetween a b } else p) :: older ∨
          c.reach < (w.countAfter? p.stop).getD 0 ∧
            ps.advance c w = beginning c a b ++ { p with phase := .ending } :: older) := by
  rw [advance, last, latest, beginning]
  cases ps with
  | nil =>
    left
    refine ⟨by simp, ?_⟩
    dsimp only
    split <;> rfl
  | cons p older =>
    by_cases growing : p.phase = .growing
    · refine .inr ⟨p, older, rfl, growing, ?_⟩
      rcases Nat.lt_or_ge c.reach ((w.countAfter? p.stop).getD 0) with far | near
      · refine .inr ⟨far, ?_⟩
        simp only [growing, ne_eq, not_true_eq_false, if_false, Nat.not_le_of_lt far]
        split <;> rfl
      · refine .inl ⟨near, ?_⟩
        simp only [growing, ne_eq, not_true_eq_false, if_false, near, if_true]
        split <;> rfl
    · refine .inl ⟨by simpa using growing, ?_⟩
      simp only [growing, ne_eq, not_false_eq_true, if_true]
      split <;> rfl

private theorem advanceStrictly?_eq (sound : w.Sound) (ps : Pulses α)
    (there : ∀ p, ps.head? = some p → p.phase = .growing → ∃ j, w.indexOf? p.stop = some j) :
    ps.advanceStrictly? c w = some (ps.advance c w) := by
  rcases sound.latest_cases with ⟨_, latest⟩ | ⟨two, a, b, last, latest, first, second⟩
  · rw [advanceStrictly?, advance, latest]
  have newest : Meter.Newest w a b := ⟨two, first, second⟩
  have size : w.size.psub 1 = some (w.size - 1) := Nat.psub_eq_sub (by omega)
  have begins := beginStrictly?_eq (c := c) newest
  rw [advanceStrictly?, latest, size]
  rcases advance_cases (c := c) last latest ps with ⟨rests, same⟩ | ⟨p, older, rfl, growing, moves⟩
  · rw [same]
    cases ps with
    | nil => exact begins []
    | cons p older =>
      have rests := rests p rfl
      simpa [rests] using begins (p :: older)
  · obtain ⟨j, found⟩ := there p rfl growing
    have bound := w.indexOf?_lt _ _ found
    have distance : (w.size - 1).psub j = some (w.size - 1 - j) := Nat.psub_eq_sub (by omega)
    rw [sound.countAfter?_of_indexOf? found, Option.getD_some] at moves
    rcases moves with ⟨near, same⟩ | ⟨far, same⟩
    · rw [same]
      simp only [growing, found, distance, near, second, Option.bind_eq_bind, Option.bind_some, ne_eq,
        not_true_eq_false, if_false, if_true]
      split <;> rfl
    · rw [same]
      simpa [growing, found, distance, Nat.not_le_of_lt far] using begins _

/-- Behind a frozen pulse there are only frozen ones. -/
def FrozenLast (ps : Pulses α) : Prop :=
  ps.Pairwise fun newer older => newer.phase = .frozen → older.phase = .frozen

omit [Scalar α] in
private theorem Settled.frozenLast {ps : Pulses α} (settled : ps.Settled) : ps.FrozenLast := by
  cases ps with
  | nil => exact .nil
  | cons p older =>
    refine List.pairwise_cons.mpr ⟨fun q behind _ => settled.older_frozen q behind, ?_⟩
    exact List.pairwise_of_forall_mem_list fun _ _ q behind _ => settled.older_frozen q behind

omit [Scalar α] in
private theorem FrozenLast.cons {p : Pulse α} {older : Pulses α} (phase : p.phase ≠ .frozen)
    (last : older.FrozenLast) : FrozenLast (p :: older) :=
  List.pairwise_cons.mpr ⟨fun _ _ frozen => absurd frozen phase, last⟩

private theorem FrozenLast.begin {ps : Pulses α} (last : ps.FrozenLast) :
    (beginning c a b ++ ps).FrozenLast := by
  rw [beginning]
  split
  · exact last.cons (by simp [Pulse.begin])
  · exact last

private theorem FrozenLast.advance (sound : w.Sound) {ps : Pulses α} (settled : ps.Settled) :
    (ps.advance c w).FrozenLast := by
  rcases sound.latest_cases with ⟨_, latest⟩ | ⟨_, a, b, last, latest, _⟩
  · rw [Pulses.advance, latest]
    exact settled.frozenLast
  rcases advance_cases (c := c) last latest ps with ⟨_, same⟩ | ⟨p, older, rfl, growing, moves⟩
  · rw [same]
    exact settled.frozenLast.begin
  · have behind := settled.frozenLast.tail
    rcases moves with ⟨_, same⟩ | ⟨_, same⟩
    · rw [same]
      refine FrozenLast.cons ?_ behind
      split <;> simp [growing]
    · rw [same]
      exact FrozenLast.begin (behind.cons (by simp))

omit [Scalar α] in
private theorem FrozenLast.revise {ps : Pulses α} (last : ps.FrozenLast) (f : Pulse α → Pulse α) :
    ps.revise (some ∘ f) = ps.map fun p => if p.takesFit then f p else p := by
  induction ps with
  | nil => rfl
  | cons p older ih =>
    obtain ⟨behind, rest⟩ := List.pairwise_cons.mp last
    by_cases frozen : p.phase = .frozen
    · have all : ∀ q ∈ p :: older, q.phase = .frozen :=
        List.forall_mem_cons.mpr ⟨frozen, fun q member => behind q member frozen⟩
      rw [revise_of_frozen _ all]
      refine (List.map_id _).symm.trans (List.map_congr_left fun q member => ?_)
      simp [Pulse.takesFit, all q member]
    · rw [revise_cons _ _ frozen, ih rest]
      simp [Pulse.takesFit, frozen]

end Pulses

/-! ## The fits -/

namespace Pulse
variable {w : Window α} {p : Pulse α} {i j : Nat}

private theorem riseStrictly?_eq (w : Window α) (k : Nat) :
    riseStrictly? w k = (List.zipWith (· * ·) w.rates (Sample.intervals w.samples))[k]? := by
  rw [riseStrictly?, Sample.intervals, List.getElem?_zipWith, List.getElem?_zipWith, List.getElem?_tail]
  cases w.rates[k]? <;> cases w.samples[k]? <;> cases w.samples[k + 1]? <;> rfl

private theorem intervals_extract (samples : List (Sample α)) (i j : Nat) :
    (Sample.intervals samples).extract i j = Sample.intervals (samples.extract i (j + 1)) := by
  ext k : 1
  simp only [Sample.intervals, List.extract_eq_take_drop, List.getElem?_take, List.getElem?_drop,
    List.getElem?_zipWith, List.getElem?_tail]
  rcases Nat.lt_or_ge k (j - i) with inside | outside
  · simp [inside, show k < j + 1 - i by omega, show k + 1 < j + 1 - i by omega, Nat.add_assoc]
  · simp [Nat.not_lt_of_ge outside, show ¬ k + 1 < j + 1 - i by omega]

private theorem fitStrictly?_eq (sound : w.Sound) (k : α) (start : w.indexOf? p.start = some i)
    (stop : w.indexOf? p.stop = some j) (ordered : i ≤ j) :
    p.fitStrictly? k w =
      some (PulseFit.ofStretch k p.start (w.samples.extract i (j + 1)) (w.rates.extract i j)) := by
  have bound := w.indexOf?_lt _ _ stop
  have count := sound.rates_length
  have size := w.size_eq
  have stretch : Sample.stretch? w.samples i j = some (w.samples.extract i (j + 1)) :=
    if_pos ⟨by omega, by omega⟩
  have rises : (List.range' i (j - i)).mapM (riseStrictly? w) =
      some (List.zipWith (· * ·) (w.rates.extract i j)
        (Sample.intervals (w.samples.extract i (j + 1)))) := by
    rw [funext (riseStrictly?_eq w), mapM_getElem? _ i (j - i), ← intervals_extract]
    · rw [Nat.add_sub_cancel' ordered]
      simp only [List.extract_eq_take_drop, List.drop_zipWith, List.take_zipWith]
    · simp [Sample.intervals]
      omega
  rw [fitStrictly?, start, stop]
  simp only [Option.bind_eq_bind, Option.bind_some, stretch, rises, PulseFit.ofStretch,
    PulseFit.addRises_eq]
  rfl

end Pulse

namespace Meter
variable {m : Meter α} {w : Window α}

def Lies (w : Window α) (p : Pulse α) : Prop :=
  ∃ i j, w.indexOf? p.start = some i ∧ w.indexOf? p.stop = some j ∧ i < j

private theorem revisedStrictly?_eq (sound : w.Sound) {p : Pulse α} (lies : Lies w p) :
    m.revisedStrictly? w p = some (if p.takesFit then m.fitPulse w p else p) := by
  obtain ⟨i, j, start, stop, ordered⟩ := lies
  have between := sound.between?_eq start stop (Nat.le_of_lt ordered)
  rw [revisedStrictly?, p.fitStrictly?_eq sound _ start stop (Nat.le_of_lt ordered), fitPulse, Pulse.refit,
    between]
  split <;> rfl

private theorem begun_lies {a b : Sample α} {c : MeterSettings α} (sound : w.Sound) (newest : Newest w a b) :
    ∀ p ∈ Pulses.beginning c a b, Lies w p := by
  have two := newest.two
  intro p member
  rw [Pulses.beginning] at member
  split at member
  · rw [List.mem_singleton.mp member]
    exact ⟨_, _, sound.indexOf?_of_sample newest.first, sound.indexOf?_of_sample newest.second, by omega⟩
  · exact absurd member List.not_mem_nil

/-- Whatever the newest rate does to a pulse, both its ends are in the window. -/
private theorem advance_lies {c : MeterSettings α} (sound : w.Sound) {ps : Pulses α}
    (lies : ∀ p ∈ ps, Lies w p) : ∀ p ∈ ps.advance c w, Lies w p := by
  rcases sound.latest_cases with ⟨_, latest⟩ | ⟨two, a, b, last, latest, first, second⟩
  · rw [Pulses.advance, latest]
    exact lies
  have begins := begun_lies (c := c) sound ⟨two, first, second⟩
  rcases Pulses.advance_cases (c := c) last latest ps with ⟨_, same⟩ | ⟨p, older, rfl, growing, moves⟩
  · rw [same]
    exact List.forall_mem_append.mpr ⟨begins, lies⟩
  obtain ⟨moved, behind⟩ := List.forall_mem_cons.mp lies
  rcases moves with ⟨_, same⟩ | ⟨_, same⟩
  · rw [same]
    refine List.forall_mem_cons.mpr ⟨?_, behind⟩
    obtain ⟨i, j, start, stop, ordered⟩ := moved
    split
    · have bound := w.indexOf?_lt _ _ stop
      exact ⟨i, _, start, sound.indexOf?_of_sample second, by omega⟩
    · exact ⟨i, j, start, stop, ordered⟩
  · rw [same]
    exact List.forall_mem_append.mpr ⟨begins, List.forall_mem_cons.mpr ⟨moved, behind⟩⟩

private theorem follow_strictly {c : MeterSettings α} {n : Nat} {x : Sample α} (consistent : m.Consistent c)
    (entered : m.window.Entered w x n) :
    ((m.pulses.dropExpired w).advanceStrictly? m.settings w).bind
        (fun advanced => advanced.mapM (m.revisedStrictly? w)) =
      some (((m.keptPulses w n).advance m.settings w).revise (some ∘ m.fitPulse w)) := by
  have sound := entered.sound
  have placed := kept_placed consistent entered
  have lies : ∀ p ∈ m.keptPulses w n, Lies w p := by
    intro p member
    obtain ⟨i, j, spans⟩ := placed.spans p member
    exact ⟨i, j, spans.start, spans.stop, spans.ordered⟩
  have same : m.pulses.dropExpired w = m.keptPulses w n := by
    rw [Pulses.dropExpired]
    split
    · next none =>
      have new := entered.sample_new
      rw [Window.oldest?_eq, List.head?_eq_none_iff] at none
      simp [none] at new
    · next oldest there => exact (keptPulses_eq_filter consistent entered there).symm
  have settled := consistent.settled.sublist (m.keptPulses_sublist w n)
  rw [same, Pulses.advanceStrictly?_eq sound, Option.bind_some,
    (Pulses.FrozenLast.advance sound settled).revise]
  · exact mapM_eq_map fun p member => revisedStrictly?_eq sound (advance_lies sound lies p member)
  · intro p first _
    obtain ⟨_, j, _, stop, _⟩ := lies p (List.mem_of_head? first)
    exact ⟨j, stop⟩

/-- Taking a sample in never has to fall back on anything. -/
theorem recordStrictly?_eq {c : MeterSettings α} (consistent : m.Consistent c) (positive : 0 < c.span)
    (x : Sample α) : m.recordStrictly? x = some (m.record x) := by
  rw [recordStrictly?, Window.pushStrictly?_eq, record]
  cases pushed : m.window.push x with
  | error a => rfl
  | ok result =>
    obtain ⟨w, n⟩ := result
    have entered := m.window.push_entered w x n consistent.sound (by rwa [consistent.span]) pushed
    have follows := follow_strictly consistent entered
    simp only [Option.bind_eq_bind, Option.bind_some, ← Option.bind_assoc, follows]
    rfl

end Meter

theorem Pulse.Spans.locate? {threshold : α} {w : Window α} {p : Pulse α} {i j : Nat}
    (spans : p.Spans threshold w i j) : p.locate? w.samples = some ⟨i, j, p⟩ := by
  have start : Sample.indexOf? w.samples p.start = some i := spans.start
  have stop : Sample.indexOf? w.samples p.stop = some j := spans.stop
  simp [Pulse.locate?, start, stop]

/-- A snapshot shows all pulses that are long enough. -/
theorem Meter.Consistent.shown {c : MeterSettings α} {m : Meter α} (consistent : m.Consistent c) :
    m.snapshot.pulses.map LocatedPulse.pulse = (m.pulses.filter fun p => c.minimum ≤ p.length).reverse := by
  have all : ∀ p ∈ (m.pulses.filter fun p => c.minimum ≤ p.length).reverse,
      (p.locate? m.window.samples).map LocatedPulse.pulse = some p := by
    intro p member
    obtain ⟨i, j, spans⟩ :=
      consistent.placed.spans p (List.mem_filter.mp (List.mem_reverse.mp member)).1
    simp [spans.locate?]
  rw [Snapshot.pulses, List.map_filterMap]
  change List.filterMap _ (m.pulses.filter fun p => m.settings.minimum ≤ p.length).reverse = _
  rw [consistent.settings]
  exact (List.filterMap_congr all).trans List.filterMap_some

namespace Session

/-- At whatever moment of a session, also while rounds are in progress, any sample can be taken in without
falling back on anything, every tracked pulse has both its ends in the window, and a snapshot leaves out only
the pulses that are too short. -/
theorem ingestion_stays_defined {c : MeterSettings α} {points : List (Point α)} {meter : Meter α}
    (built : Meter.ofSettings c points = .ok meter) (ops : List (Operation α)) {trace : List (Event α)}
    {now : Moment α} (passes : (Moment.before { meter := meter } ops).Passes trace now) :
    let m := now.session.meter
    (∀ x, m.recordStrictly? x = some (m.record x)) ∧
      (∀ p ∈ m.pulses, ∃ first last, first < last ∧
        p.locate? m.window.samples = some ⟨first, last, p⟩) ∧
      m.snapshot.pulses.map LocatedPulse.pulse =
        (m.pulses.filter fun p => c.minimum ≤ p.length).reverse := by
  obtain ⟨valid, t, _, rfl⟩ := Meter.ofSettings_eq_ok built
  have positive := MeterSettings.span_pos valid
  have consistent := passes.consistent positive (Meter.start_consistent c t)
  refine ⟨Meter.recordStrictly?_eq consistent positive, ?_, consistent.shown⟩
  intro p member
  obtain ⟨i, j, spans⟩ := consistent.placed.spans p member
  exact ⟨i, j, spans.ordered, spans.locate?⟩

namespace Strict

/-- Two heatings, and then a sample with which the first two leave the window. -/
def ops : List (Operation Float) :=
  [.subscribeWith [], .ingest (TwoHeatings.second 0 0), .ingest (TwoHeatings.second 1 0),
    .ingest (TwoHeatings.second 2 0), .ingest (TwoHeatings.second 3 1), .ingest (TwoHeatings.second 4 1),
    .ingest (TwoHeatings.second 5 1), .ingest (TwoHeatings.second 6 2), .ingest (TwoHeatings.second 11 2)]

def start : Moment Float := .before { meter := Meter.start TwoHeatings.settings Table.empty } ops

/-- The round for the last sample is in progress. -/
def now : Moment Float := (start.run 24).2

def meter : Meter Float := now.session.meter

end Strict

-- The sample at half a minute leaves itself alone in the window.
theorem ingestion_stays_defined_in_round :
    Meter.ofSettings TwoHeatings.settings [] = .ok (Meter.start TwoHeatings.settings Table.empty) ∧
      Strict.start.Passes (Strict.start.run 24).1 Strict.now ∧ Strict.now.tasks.length = 1 ∧
      Strict.meter.window.size = 6 ∧ Strict.meter.pulses.map Pulse.phase = [.growing, .frozen] ∧
      (∃ next, Strict.meter.record (TwoHeatings.second 30 5) = .ok next ∧ next.window.size = 1) ∧
      Strict.meter.recordStrictly? (TwoHeatings.second 30 5) =
        some (Strict.meter.record (TwoHeatings.second 30 5)) ∧
      (∀ p ∈ Strict.meter.pulses, ∃ first last, first < last ∧
        p.locate? Strict.meter.window.samples = some ⟨first, last, p⟩) ∧
      Strict.meter.snapshot.pulses.map LocatedPulse.pulse =
        (Strict.meter.pulses.filter fun p => TwoHeatings.settings.minimum ≤ p.length).reverse := by
  have reached := Moment.run_passes 24 Strict.start
  obtain ⟨defined, located, shown⟩ := ingestion_stays_defined TwoHeatings.built Strict.ops reached
  exact ⟨TwoHeatings.built, reached, by decide, by decide, by decide, ⟨_, rfl, by decide⟩, defined _,
    located, shown⟩

end Session
end Calorimetry
