import Calorimetry.Proofs.Stream
import Calorimetry.Proofs.Tracking.Episodes
import Mathlib.Data.List.Forall2

/-! The pulses that are tracked while samples come in are the episodes that a look at the whole
recording finds. As long as nothing has left the window, an episode whose end is within reach of the
newest sample is the growing pulse, every other one is a frozen pulse or was too short, and there are
no further pulses. -/

namespace Calorimetry
variable {α : Type} [Scalar α]

namespace Episode

/-- Whether one more step could extend the episode, after `count` samples. -/
def isOpen (reach count : Nat) (e : Episode α) : Bool := count - 1 - e.last.position ≤ reach

/-- Whether there is a pulse for the episode, after `count` samples. -/
def isTracked (c : MeterSettings α) (count : Nat) (e : Episode α) : Bool :=
  e.isOpen c.reach count || decide (c.minimum ≤ e.length)

/-- The pulse `p` is what is tracked of the episode `e`, after `count` samples. -/
structure Tracks (c : MeterSettings α) (count : Nat) (p : Pulse α) (e : Episode α) : Prop where
  start : p.start = e.first.before.time
  stop : p.stop = e.last.after.time
  rate : p.rate = e.last.rate
  phase : p.phase = if e.isOpen c.reach count then .growing else .frozen

def Tracked (c : MeterSettings α) (count : Nat) (ps : Pulses α) (episodes : List (Episode α)) : Prop :=
  List.Forall₂ (Tracks c count) ps (episodes.filter (isTracked c count))

variable {c : MeterSettings α} {count : Nat} {ps : Pulses α} {e : Episode α}
  {episodes : List (Episode α)}

private theorem Tracked.cons {p : Pulse α} (tracks : Tracks c count p e) (kept : e.isTracked c count = true)
    (behind : Tracked c count ps episodes) : Tracked c count (p :: ps) (e :: episodes) := by
  rw [Tracked, List.filter_cons_of_pos kept]
  exact .cons tracks behind

private theorem Tracked.skip (dropped : e.isTracked c count = false) (behind : Tracked c count ps episodes) :
    Tracked c count ps (e :: episodes) := by
  rw [Tracked, List.filter_cons_of_neg (by simp [dropped])]
  exact behind

private theorem Tracked.uncons (tracked : Tracked c count ps (e :: episodes)) :
    (∃ p older, ps = p :: older ∧ Tracks c count p e ∧ e.isTracked c count = true ∧
        Tracked c count older episodes) ∨
      (e.isTracked c count = false ∧ Tracked c count ps episodes) := by
  cases kept : e.isTracked c count with
  | true =>
    left
    rw [Tracked, List.filter_cons_of_pos kept] at tracked
    obtain ⟨p, older, tracks, behind, equal⟩ := List.forall₂_cons_right_iff.mp tracked
    exact ⟨p, older, equal, tracks, rfl, behind⟩
  | false =>
    right
    rw [Tracked, List.filter_cons_of_neg (by simp [kept])] at tracked
    exact ⟨rfl, tracked⟩

omit [Scalar α] in
private theorem isOpen_succ (reach count : Nat) (e : Episode α) (closed : e.isOpen reach count = false) :
    e.isOpen reach (count + 1) = false := by
  simp only [isOpen, decide_eq_false_iff_not] at closed ⊢
  omega

private theorem Tracked.of_closed (tracked : Tracked c count ps episodes)
    (closed : ∀ e ∈ episodes, e.isOpen c.reach count = false) :
    (∀ p ∈ ps, p.phase = .frozen) ∧ Tracked c (count + 1) ps episodes := by
  induction episodes generalizing ps with
  | nil =>
    cases tracked
    exact ⟨by simp, .nil⟩
  | cons e older ih =>
    obtain ⟨ended, rest⟩ := List.forall_mem_cons.mp closed
    have still := isOpen_succ _ _ e ended
    have same : e.isTracked c (count + 1) = e.isTracked c count := by
      rw [isTracked, isTracked, ended, still]
    rcases tracked.uncons with ⟨p, behind, rfl, tracks, kept, tracked⟩ | ⟨dropped, tracked⟩
    · obtain ⟨frozen, stays⟩ := ih tracked rest
      have phase : p.phase = .frozen := by simpa [ended] using tracks.phase
      refine ⟨List.forall_mem_cons.mpr ⟨phase, frozen⟩, ?_⟩
      refine .cons ⟨tracks.start, tracks.stop, tracks.rate, ?_⟩ (same.trans kept) stays
      simp [still, phase]
    · obtain ⟨frozen, stays⟩ := ih tracked rest
      exact ⟨frozen, .skip (same.trans dropped) stays⟩

private theorem Tracked.closed_of_frozen (tracked : Tracked c count ps episodes)
    (frozen : ∀ p ∈ ps, p.phase = .frozen) : ∀ e ∈ episodes, e.isOpen c.reach count = false := by
  induction episodes generalizing ps with
  | nil => simp
  | cons e older ih =>
    rcases tracked.uncons with ⟨p, behind, rfl, tracks, kept, tracked⟩ | ⟨dropped, tracked⟩
    · obtain ⟨rests, frozen⟩ := List.forall_mem_cons.mp frozen
      have phase := tracks.phase
      rw [rests] at phase
      have closed : e.isOpen c.reach count = false := by simpa using phase
      exact List.forall_mem_cons.mpr ⟨closed, ih tracked frozen⟩
    · have closed := (Bool.or_eq_false_iff.mp dropped).1
      exact List.forall_mem_cons.mpr ⟨closed, ih tracked frozen⟩

omit [Scalar α] in
private theorem Spread.older_closed {reach : Nat} (spread : Spread reach count (e :: episodes)) :
    ∀ o ∈ episodes, o.isOpen reach count = false := by
  intro o member
  have apart := (List.pairwise_cons.mp spread.apart).1 o member
  have ordered := spread.ordered e List.mem_cons_self
  have bound := spread.bound e List.mem_cons_self
  simp only [isOpen, decide_eq_false_iff_not]
  omega

private theorem Tracked.growing {p : Pulse α} {older : Pulses α}
    (tracked : Tracked c count (p :: older) episodes) (spread : Spread c.reach count episodes)
    (growing : p.phase = .growing) :
    ∃ e closed, episodes = e :: closed ∧ Tracks c count p e ∧ Tracked c count older closed ∧
      ∀ o ∈ closed, o.isOpen c.reach count = false := by
  cases episodes with
  | nil => cases tracked
  | cons e closed =>
    rcases tracked.uncons with ⟨q, behind, equal, tracks, _, tracked⟩ | ⟨_, tracked⟩
    · cases equal
      exact ⟨e, closed, rfl, tracks, tracked, spread.older_closed⟩
    · have rests := (tracked.of_closed spread.older_closed).1 p List.mem_cons_self
      rw [growing] at rests
      contradiction

end Episode

namespace Meter
open Episode
variable {m : Meter α} {w : Window α} {a x : Sample α} {count : Nat} {older : Pulses α}
  {episodes : List (Episode α)}

/-- The episodes after a step from `a` to `x`, which leads to position `count`. -/
def episodesAfter (m : Meter α) (count : Nat) (a x : Sample α) (episodes : List (Episode α)) :
    List (Episode α) :=
  if Scalar.lt m.settings.threshold (Window.rateBetween a x) then
    extend m.settings.reach ⟨count, a, x⟩ episodes
  else episodes

private theorem begun_tracked (tracked : Tracked m.settings (count + 1) older episodes)
    (closed : ∀ e ∈ episodes, e.isOpen m.settings.reach (count + 1) = false) :
    Tracked m.settings (count + 1) (m.begun w a x ++ older)
      (m.episodesAfter count a x episodes) := by
  rw [begun, episodesAfter]
  split
  · have apart : extend m.settings.reach ⟨count, a, x⟩ episodes =
        ⟨⟨count, a, x⟩, ⟨count, a, x⟩⟩ :: episodes := by
      cases episodes with
      | nil => rfl
      | cons e rest =>
        have far := closed e List.mem_cons_self
        simp only [isOpen, decide_eq_false_iff_not] at far
        exact if_neg far
    have fresh : isOpen m.settings.reach (count + 1) ⟨⟨count, a, x⟩, ⟨count, a, x⟩⟩ = true := by
      simp [isOpen]
    rw [apart]
    refine .cons ⟨rfl, rfl, rfl, ?_⟩ ?_ tracked
    · rw [fresh]
      rfl
    · rw [isTracked, fresh, Bool.true_or]
  · exact tracked

private theorem retired_tracked {p : Pulse α} {e : Episode α} (tracks : Tracks m.settings count p e)
    (far : e.isOpen m.settings.reach (count + 1) = false)
    (tracked : Tracked m.settings (count + 1) older episodes) :
    Tracked m.settings (count + 1) (m.retired w p ++ older) (e :: episodes) := by
  have length : p.length = e.length := by
    rw [Pulse.length, Episode.length, tracks.start, tracks.stop]
  rw [retired, length]
  split
  next short =>
    apply Tracked.skip _ tracked
    simp [isTracked, far, Nat.not_le_of_lt short]
  next long =>
    refine .cons ⟨tracks.start, tracks.stop, tracks.rate, ?_⟩ ?_ tracked
    · rw [far]
      rfl
    · simp [isTracked, Nat.le_of_not_lt long]

private theorem grown_tracked {p : Pulse α} {e : Episode α} (tracks : Tracks m.settings count p e)
    (growing : p.phase = .growing) (near : e.isOpen m.settings.reach (count + 1) = true)
    (tracked : Tracked m.settings (count + 1) older episodes) :
    Tracked m.settings (count + 1) (m.grown w a x p :: older)
      (m.episodesAfter count a x (e :: episodes)) := by
  rw [grown, episodesAfter]
  split
  · have extended : extend m.settings.reach ⟨count, a, x⟩ (e :: episodes) =
        ⟨e.first, ⟨count, a, x⟩⟩ :: episodes := by
      simp only [isOpen, decide_eq_true_eq] at near
      exact if_pos near
    have fresh : isOpen m.settings.reach (count + 1) ⟨e.first, ⟨count, a, x⟩⟩ = true := by
      simp [isOpen]
    rw [extended]
    refine .cons ⟨tracks.start, rfl, rfl, ?_⟩ ?_ tracked
    · rw [fresh]
      exact growing
    · rw [isTracked, fresh, Bool.true_or]
  · refine .cons ⟨tracks.start, tracks.stop, tracks.rate, ?_⟩ ?_ tracked
    · rw [near]
      exact growing
    · rw [isTracked, near, Bool.true_or]

private theorem isOpen_of_count (sound : w.Sound) {samples : List (Sample α)} {p : Pulse α} {e : Episode α}
    (recorded : w.samples = samples ++ [x]) (tracks : Tracks m.settings count p e)
    (lies : e.Lies samples) :
    e.isOpen m.settings.reach (samples.length + 1) =
      decide ((w.countAfter? p.stop).getD 0 ≤ m.settings.reach) := by
  have bound := (List.getElem?_eq_some_iff.mp lies.stop).1
  have there : w.samples[e.last.position]? = some e.last.after := by
    rw [recorded, List.getElem?_append_left bound]
    exact lies.stop
  have size : w.size = samples.length + 1 := by
    rw [w.size_eq, recorded, List.length_append, List.length_singleton]
  rw [tracks.stop, sound.countAfter?_of_indexOf? (sound.indexOf?_of_sample there), size]
  rfl

private theorem Follows.tracked {ps next : Pulses α} (follows : m.Follows w a x ps next) (sound : w.Sound)
    {samples : List (Sample α)} (recorded : w.samples = samples ++ [x])
    (last : samples.getLast? = some a)
    (tracked : Tracked m.settings samples.length ps (Episode.all m.settings samples).reverse) :
    Tracked m.settings (samples.length + 1) next
      (Episode.all m.settings (samples ++ [x])).reverse := by
  have spread := Episode.all_spread m.settings samples
  have lies : ∀ e ∈ (Episode.all m.settings samples).reverse, e.Lies samples := fun e member =>
    Episode.all_lie m.settings samples e (List.mem_reverse.mp member)
  rw [Episode.all_concat m.settings samples a x last]
  change Tracked _ _ _ (m.episodesAfter samples.length a x _)
  generalize (Episode.all m.settings samples).reverse = episodes at tracked spread lies ⊢
  -- A growing pulse belongs to the newest episode. The others are closed and what is tracked of them
  -- stays, so only the newest episode and the one that may begin are looked at.
  cases follows with
  | rest _ frozen =>
    have closed := tracked.closed_of_frozen frozen
    apply begun_tracked (tracked.of_closed closed).2
    intro e member
    exact isOpen_succ _ _ e (closed e member)
  | goOn p older growing frozen near =>
    obtain ⟨e, rest, rfl, tracks, behind, closed⟩ := tracked.growing spread growing
    have same := isOpen_of_count sound recorded tracks (lies e List.mem_cons_self)
    apply grown_tracked tracks growing _ (behind.of_closed closed).2
    rw [same, decide_eq_true near]
  | finish p older growing frozen far =>
    obtain ⟨e, rest, rfl, tracks, behind, closed⟩ := tracked.growing spread growing
    have same := isOpen_of_count sound recorded tracks (lies e List.mem_cons_self)
    have ended : e.isOpen m.settings.reach (samples.length + 1) = false := by
      rw [same, decide_eq_false (Nat.not_le_of_lt far)]
    apply begun_tracked (retired_tracked tracks ended (behind.of_closed closed).2)
    have still := fun o member => isOpen_succ _ _ o (closed o member)
    exact List.forall_mem_cons.mpr ⟨ended, still⟩

/-- The pulses are what is tracked of the episodes in the window. -/
def Detects (c : MeterSettings α) (m : Meter α) : Prop :=
  Tracked c m.window.size m.pulses (Episode.all c m.window.samples).reverse

private theorem record_detects {c : MeterSettings α} {next : Meter α} (consistent : m.Consistent c)
    (positive : 0 < c.span) (recorded : m.record x = .ok next)
    (entered : m.window.Entered next.window x 0) (tracked : m.Detects c) : next.Detects c := by
  obtain ⟨n, moved, _, _, step⟩ := record_cases consistent positive recorded
  have stays : n = 0 := by
    have size := entered.size
    have same := moved.size
    have bound := moved.le_size
    omega
  subst stays
  have samples : next.window.samples = m.window.samples ++ [x] := entered.samples
  rw [Detects, entered.size, samples]
  rcases step with ⟨alone, _, none⟩ | ⟨a, newest, follows⟩
  · have empty : m.window.samples = [] := by
      rw [entered.size, Window.size_eq] at alone
      exact List.length_eq_zero_iff.mp (by omega)
    rw [none, empty]
    exact .nil
  · have last : m.window.samples.getLast? = some a := by
      have two := newest.two
      have first := newest.first
      rw [entered.size, Window.size_eq] at two first
      rw [samples, List.getElem?_append_left (by omega)] at first
      rw [List.getLast?_eq_getElem?]
      exact first
    rw [Detects, Window.size_eq] at tracked
    rw [Window.size_eq]
    rw [← consistent.settings] at tracked ⊢
    exact follows.tracked entered.sound samples last tracked

end Meter
namespace Episode
variable {c : MeterSettings α} {count : Nat}

private theorem Tracked.long {ps : Pulses α} {episodes : List (Episode α)}
    (tracked : Tracked c count ps episodes) :
    List.Forall₂ (Tracks c count) (ps.filter fun p => c.minimum ≤ p.length)
      (episodes.filter fun e => c.minimum ≤ e.length) := by
  have kept : (episodes.filter fun e => c.minimum ≤ e.length) =
      (episodes.filter (isTracked c count)).filter fun e => c.minimum ≤ e.length := by
    rw [List.filter_filter]
    apply List.filter_congr
    intro e _
    rw [isTracked]
    cases decide (c.minimum ≤ e.length) <;> simp
  rw [kept]
  refine List.rel_filter ?_ tracked
  intro p e tracks
  have length : p.length = e.length := by
    rw [Pulse.length, Episode.length, tracks.start, tracks.stop]
  simp [length]

private theorem located (w : Window α) (sound : w.Sound) {ps : Pulses α} {episodes : List (Episode α)}
    (tracked : List.Forall₂ (Tracks c count) ps episodes)
    (lie : ∀ e ∈ episodes, e.Lies w.samples) :
    List.Forall₂ (fun (shown : LocatedPulse α) (e : Episode α) =>
        shown.first = e.first.position - 1 ∧ shown.last = e.last.position ∧
          Tracks c count shown.pulse e)
      (ps.filterMap (·.locate? w.samples)) episodes := by
  induction tracked with
  | nil => exact .nil
  | @cons p e older rest tracks _ ih =>
    obtain ⟨lies, behind⟩ := List.forall_mem_cons.mp lie
    have start : Sample.indexOf? w.samples p.start = some (e.first.position - 1) := by
      rw [tracks.start]
      exact sound.indexOf?_of_sample lies.start
    have stop : Sample.indexOf? w.samples p.stop = some e.last.position := by
      rw [tracks.stop]
      exact sound.indexOf?_of_sample lies.stop
    have found : p.locate? w.samples = some ⟨e.first.position - 1, e.last.position, p⟩ := by
      simp [Pulse.locate?, start, stop]
    rw [List.filterMap_cons_some found]
    exact .cons ⟨rfl, rfl, tracks⟩ (ih behind)

end Episode

private theorem Meter.Detects.shown {c : MeterSettings α} {m : Meter α} (detects : m.Detects c)
    (consistent : m.Consistent c) :
    List.Forall₂
      (fun p e => p.first = e.first.position - 1 ∧ p.last = e.last.position ∧
        p.pulse.rate = e.last.rate ∧
        (p.pulse.phase = .growing ↔ m.window.samples.length - 1 - e.last.position ≤ c.reach))
      m.snapshot.pulses
      ((Episode.all c m.window.samples).filter fun e => c.minimum ≤ e.length) := by
  have long := Episode.Tracked.long detects
  rw [List.filter_reverse] at long
  have ordered := List.rel_reverse long
  rw [List.reverse_reverse] at ordered
  have shows := Episode.located m.window consistent.sound ordered fun e member =>
    Episode.all_lie c m.window.samples e (List.mem_of_mem_filter member)
  rw [Snapshot.pulses, snapshot, consistent.settings]
  refine List.Forall₂.imp ?_ shows
  rintro p e ⟨first, last, tracks⟩
  refine ⟨first, last, tracks.rate, ?_⟩
  rw [tracks.phase, Window.size_eq, Episode.isOpen]
  simp

/-- Heating is detected online as a look at the whole recording would find it. As long as nothing but
the stream reaches the measurement and nothing has left the window, there is exactly one pulse for
each episode of the minimum length, in their order. -/
theorem pulses_are_episodes {c : MeterSettings α} {points : List (Point α)} {m : Meter α}
    (built : Meter.ofSettings c points = .ok m) (s : Session α) (fresh : s.meter = m)
    (passive : s.Passive) (stream : List (Sample α)) :
    let shown := (stream.foldl Session.ingest s).meter.snapshot
    let taken := Sample.accepted stream
    shown.samples = taken →
      List.Forall₂
        (fun p e => p.first = e.first.position - 1 ∧ p.last = e.last.position ∧
          p.pulse.rate = e.last.rate ∧
          (p.pulse.phase = .growing ↔ taken.length - 1 - e.last.position ≤ c.reach))
        shown.pulses ((Episode.all c taken).filter fun e => c.minimum ≤ e.length) := by
  intro shown taken complete
  obtain ⟨valid, t, _, rfl⟩ := Meter.ofSettings_eq_ok built
  have positive := MeterSettings.span_pos valid
  have fed : (stream.foldl Session.ingest s).meter = stream.foldl Meter.feed (Meter.start c t) := by
    rw [Session.ingest_all_passive stream s passive, fresh]
  have recording : (stream.foldl Meter.feed (Meter.start c t)).window.samples = taken := by
    rw [← fed]
    exact complete
  have consistent := (Meter.feed_all_took positive t stream).1
  have detects : (stream.foldl Meter.feed (Meter.start c t)).Detects c := by
    apply Meter.feed_all_keeps positive t .nil _ stream recording
    intro m next x consistent recorded entered
    exact Meter.record_detects consistent positive recorded entered
  have result := detects.shown consistent
  rw [recording, ← fed] at result
  exact result

namespace TwoHeatings

/-- A session with a channel and a callback that ends its own subscription. -/
def watched : Session Float :=
  (({ meter := Meter.start settings Table.empty } : Session Float).subscribe
    [[.subscribe], [.unsubscribe 0]]).subscribeChannel 1

-- The sample that comes too late is refused; the second heating goes on to the end.
def stream : List (Sample Float) :=
  [second 0 0, second 1 1, second 2 1, second 3 1, second 2 5, second 4 1, second 5 2, second 6 4]

private theorem watched_passive : watched.Passive := by
  intro entry member actions planned a acts
  rw [List.mem_singleton.mp member] at planned
  rcases List.mem_pair.mp planned with rfl | rfl
  · rw [List.mem_singleton.mp acts]
    exact .subscribeWith [] (by simp)
  · rw [List.mem_singleton.mp acts]
    exact .unsubscribe 0

end TwoHeatings

theorem pulses_are_episodes_two_heatings :
    let shown := (TwoHeatings.stream.foldl Session.ingest TwoHeatings.watched).meter.snapshot
    let taken := Sample.accepted TwoHeatings.stream
    Meter.ofSettings TwoHeatings.settings [] = .ok (Meter.start TwoHeatings.settings Table.empty) ∧
      TwoHeatings.watched.Passive ∧ shown.samples = taken ∧
      shown.pulses.map (fun p => (p.first, p.last)) = [(0, 1), (4, 6)] ∧
      List.Forall₂
        (fun p e => p.first = e.first.position - 1 ∧ p.last = e.last.position ∧
          p.pulse.rate = e.last.rate ∧ (p.pulse.phase = .growing ↔
            taken.length - 1 - e.last.position ≤ TwoHeatings.settings.reach))
        shown.pulses ((Episode.all TwoHeatings.settings taken).filter fun e =>
          TwoHeatings.settings.minimum ≤ e.length) := by
  have complete :
      (TwoHeatings.stream.foldl Session.ingest TwoHeatings.watched).meter.snapshot.samples =
        Sample.accepted TwoHeatings.stream := by decide
  refine ⟨TwoHeatings.built, TwoHeatings.watched_passive, complete, by decide, ?_⟩
  exact pulses_are_episodes TwoHeatings.built TwoHeatings.watched rfl TwoHeatings.watched_passive
    TwoHeatings.stream complete

end Calorimetry
