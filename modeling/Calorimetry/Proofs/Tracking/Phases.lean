import Calorimetry.Proofs.Stream
import Calorimetry.Proofs.Tracking.Fit

/-! Heating that goes on and heating that is over. As long as every sample is above the threshold, one
pulse grows from the sample before the first of them, and the window keeps what belongs to it. When
more samples than the reach have come in below the threshold, no pulse can go on, so the next heating
begins a pulse of its own. -/

namespace Calorimetry
variable {α : Type} [Scalar α]

private theorem takeWhile_length_le {β : Type} (holds : β → Bool) (older : List β) (first : β)
    (rest : List β) (fails : holds first = false) :
    ((older ++ first :: rest).takeWhile holds).length ≤ older.length := by
  induction older with
  | nil => simp [fails]
  | cons x older ih =>
    rw [List.cons_append, List.takeWhile_cons]
    split
    · exact Nat.succ_le_succ ih
    · exact Nat.zero_le _

private theorem Window.push_keeps {w w' : Window α} {s : Sample α} {n : Nat}
    (pushed : w.push s = .ok (w', n)) {line : List (Sample α)} (some : line ≠ [])
    (suffix : line <:+ w.samples ++ [s]) (recent : ∀ a ∈ line, s.time < a.time + w.span) :
    line <:+ w'.samples := by
  rw [push] at pushed
  split at pushed
  · contradiction
  cases pushed
  obtain ⟨older, whole⟩ := suffix
  obtain ⟨first, rest, rfl⟩ := List.exists_cons_of_ne_nil some
  have few : (w.extend s).expired s.time ≤ older.length := by
    rw [expired_eq]
    split
    next reached =>
      rw [samples_extend, ← whole]
      apply takeWhile_length_le
      have young : s.time < first.time + w.span := recent first List.mem_cons_self
      exact decide_eq_false (Nat.not_le_of_lt (Nat.sub_lt_right_of_lt_add reached young))
    next => exact Nat.zero_le _
  rw [samples_dropOldest, samples_extend, ← whole, List.drop_append_of_le_length few]
  exact List.suffix_append _ _

namespace Meter
variable {m : Meter α} {c : MeterSettings α}

theorem record_keeps {next : Meter α} {x : Sample α} (accepted : m.record x = .ok next)
    {line : List (Sample α)} (some : line ≠ []) (suffix : line <:+ m.window.samples ++ [x])
    (recent : ∀ a ∈ line, x.time < a.time + m.window.span) : line <:+ next.window.samples := by
  rw [record] at accepted
  cases pushed : m.window.push x with
  | error e =>
    rw [pushed] at accepted
    contradiction
  | ok result =>
    rw [pushed] at accepted
    cases accepted
    exact Window.push_keeps pushed some suffix recent

/-- The sample `x` comes after `z`, which has not left yet. -/
structure Steps (c : MeterSettings α) (m next : Meter α) (z x : Sample α) (n : Nat) : Prop where
  recorded : m.record x = .ok next
  faithful : next.Faithful c
  entered : m.window.Entered next.window x n
  newest : Newest next.window z x
  follows : m.Follows next.window z x (m.keptPulses next.window n) next.pulses

private theorem record_appends {next : Meter α} {x : Sample α} (accepted : m.record x = .ok next)
    (faithful : m.Faithful c) (positive : 0 < c.span) {line : List (Sample α)}
    (suffix : line <:+ m.window.samples) (recent : ∀ a ∈ line, x.time < a.time + c.span) :
    line ++ [x] <:+ next.window.samples := by
  apply record_keeps accepted (List.append_ne_nil_of_right_ne_nil _ (List.cons_ne_nil _ _))
  · obtain ⟨older, whole⟩ := suffix
    exact ⟨older, by rw [← whole, List.append_assoc]⟩
  · rw [faithful.span]
    refine List.forall_mem_append.mpr ⟨recent, List.forall_mem_singleton.mpr ?_⟩
    exact Nat.lt_add_of_pos_right positive

/-- A sample that is later than the newest one, by less than the span, is taken in and makes a rate
with it. -/
theorem feed_steps (faithful : m.Faithful c) (positive : 0 < c.span) {z x : Sample α}
    (last : [z] <:+ m.window.samples) (finite : Scalar.isFinite x.reading = true)
    (later : z.time < x.time) (recent : x.time < z.time + c.span) :
    ∃ n, Steps c m (m.feed x) z x n := by
  have consistent := faithful.toConsistent
  have ends : m.window.samples.getLast? = some z := by
    obtain ⟨older, whole⟩ := last
    rw [← whole, List.getLast?_concat]
  have accepted : ∃ next, m.record x = .ok next := by
    have fine : m.window.anomaly? x = none := by
      refine (m.window.anomaly?_eq_none_iff x).mpr ⟨finite, ?_⟩
      intro y newest
      rw [Window.newest?_eq, ends] at newest
      obtain rfl := Option.some.inj newest
      exact later
    rw [record, Window.push, fine]
    exact ⟨_, rfl⟩
  obtain ⟨next, accepted⟩ := accepted
  have fed : m.feed x = next := by
    rw [feed, accepted]
    rfl
  rw [fed]
  obtain ⟨n, entered, _, _, step⟩ := record_cases consistent positive accepted
  have two : [z, x] <:+ next.window.samples :=
    record_appends accepted faithful positive last (List.forall_mem_singleton.mpr recent)
  obtain ⟨older, whole⟩ := two
  have size : next.window.size = older.length + 2 := by
    rw [Window.size_eq, ← whole, List.length_append]
    rfl
  have newest : Newest next.window z x := by
    refine ⟨by omega, ?_, ?_⟩
    · rw [size, ← whole, List.getElem?_append_right (by omega)]
      simp
    · rw [size, ← whole, List.getElem?_append_right (by omega)]
      simp
  have faithful' := Change.faithful (.record m x next accepted) positive faithful
  refine ⟨n, accepted, faithful', entered, newest, ?_⟩
  rcases step with ⟨one, _⟩ | ⟨a, newest', follows⟩
  · omega
  · obtain rfl := Option.some.inj (newest'.first.symm.trans newest.first)
    exact follows

/-- The first sample is taken in and makes no pulse. -/
theorem start_feed (c : MeterSettings α) (t : Table α) (positive : 0 < c.span) {x : Sample α}
    (finite : Scalar.isFinite x.reading = true) :
    ((start c t).feed x).Faithful c ∧ ((start c t).feed x).window.samples = [x] ∧
      ((start c t).feed x).pulses = [] := by
  have follows : Sample.canFollow [] x = true := (Sample.canFollow_iff [] x).mpr ⟨finite, nofun⟩
  rcases feed_cases (start_took c t) x with ⟨_, refused⟩ | ⟨accepted, _⟩
  · rw [follows] at refused
    contradiction
  obtain ⟨n, entered, _, _, step⟩ := record_cases (start_consistent c t) positive accepted
  have none : n = 0 := Nat.le_zero.mp entered.bound
  have alone : ((start c t).feed x).window.samples = [x] := by
    rw [entered.samples, none]
    rfl
  refine ⟨Change.faithful (.record _ x _ accepted) positive (start_faithful c t), alone, ?_⟩
  rcases step with ⟨_, _, pulses⟩ | ⟨_, newest, _⟩
  · exact pulses
  · have two := newest.two
    rw [Window.size_eq, alone] at two
    contradiction

/-! ## One sample below the threshold -/

section
variable {w : Window α} {z x : Sample α} {kept next : Pulses α}

private theorem Follows.of_cold (follows : m.Follows w z x kept next)
    (cold : Scalar.lt m.settings.threshold (Window.rateBetween z x) = false) :
    (kept = [] → next = []) ∧
      ∀ q ∈ next, q.phase = .growing → ∃ p ∈ kept, p.phase = .growing ∧ p.stop = q.stop := by
  have none : m.begun w z x = [] := by
    rw [begun, cold]
    rfl
  cases follows with
  | rest _ frozen =>
    rw [none]
    exact ⟨fun empty => empty, fun q member growing => ⟨q, member, growing, rfl⟩⟩
  | goOn p older growing frozen near =>
    refine ⟨fun impossible => absurd impossible (List.cons_ne_nil _ _), ?_⟩
    intro q member _
    rcases List.mem_cons.mp member with rfl | behind
    · refine ⟨p, List.mem_cons_self, growing, ?_⟩
      rw [grown, cold]
      rfl
    · refine ⟨q, List.mem_cons_of_mem _ behind, ?_, rfl⟩
      assumption
  | finish p older growing frozen far =>
    refine ⟨fun impossible => absurd impossible (List.cons_ne_nil _ _), ?_⟩
    intro q member grows
    rw [none] at member
    rw [m.retired_frozen w p frozen q member] at grows
    contradiction

private theorem Follows.begins (follows : m.Follows w z x kept next)
    (hot : Scalar.lt m.settings.threshold (Window.rateBetween z x) = true)
    (far : ∀ p ∈ kept, p.phase = .growing →
      m.settings.reach < (w.countAfter? p.stop).getD 0) :
    ∃ older, next = m.fitPulse w (.begin z.time x.time (Window.rateBetween z x)) :: older := by
  have one : m.begun w z x = [m.fitPulse w (.begin z.time x.time (Window.rateBetween z x))] := by
    rw [begun, hot]
    rfl
  cases follows with
  | rest _ frozen =>
    rw [one]
    exact ⟨_, rfl⟩
  | goOn p older growing frozen near =>
    exact absurd (far p List.mem_cons_self growing) (Nat.not_lt_of_le near)
  | finish p older growing frozen _ =>
    rw [one]
    exact ⟨_, rfl⟩

private theorem Follows.extends {p : Pulse α} {older : Pulses α}
    (follows : m.Follows w z x (p :: older) next)
    (hot : Scalar.lt m.settings.threshold (Window.rateBetween z x) = true)
    (growing : p.phase = .growing) (near : (w.countAfter? p.stop).getD 0 ≤ m.settings.reach) :
    next = m.fitPulse w { p with stop := x.time, rate := Window.rateBetween z x } :: older := by
  generalize whole : p :: older = kept at follows
  cases follows with
  | rest _ frozen =>
    have rests := frozen p (by rw [← whole]; exact List.mem_cons_self)
    rw [growing] at rests
    contradiction
  | goOn q older' _ _ _ =>
    obtain ⟨rfl, rfl⟩ := List.cons.inj whole
    rw [grown, hot]
    rfl
  | finish q older' _ _ far =>
    obtain ⟨rfl, rfl⟩ := List.cons.inj whole
    exact absurd far (Nat.not_lt_of_le near)

end

/-! ## Phases -/

/-- At least `count` samples have come in since a pulse that still grows has ended. -/
def Idle (m : Meter α) (count : Nat) : Prop :=
  ∀ p ∈ m.pulses, p.phase = .growing → ∀ j, m.window.indexOf? p.stop = some j →
    j + count < m.window.size

theorem idle_zero (m : Meter α) : m.Idle 0 :=
  fun _ _ _ _ found => m.window.indexOf?_lt _ _ found

section
variable {next : Meter α} {z x : Sample α} {n : Nat}

private theorem Steps.stop_moves (steps : Steps c m next z x n) (faithful : m.Faithful c) {count : Nat}
    (idle : m.Idle count) {p : Pulse α} (kept : p ∈ m.keptPulses next.window n)
    (growing : p.phase = .growing) :
    ∃ j, next.window.indexOf? p.stop = some j ∧ j + count + 1 < next.window.size := by
  have present := (m.keptPulses_sublist next.window n).subset kept
  obtain ⟨i, j, spans⟩ := faithful.placed.spans p present
  have stays := keptPulses_stay steps.entered faithful.sound p kept i spans.start
  have ordered := spans.ordered
  have far := idle p present growing j spans.stop
  have size := steps.entered.size
  exact ⟨j - n, steps.entered.indexOf?_old spans.stop (by omega), by omega⟩

theorem Steps.rests (steps : Steps c m next z x n) (faithful : m.Faithful c) {count : Nat}
    (idle : m.Idle count)
    (cold : Scalar.lt c.threshold (Window.rateBetween z x) = false) :
    next.Idle (count + 1) ∧ (m.pulses = [] → next.pulses = []) := by
  rw [← faithful.settings] at cold
  obtain ⟨empty, before⟩ := steps.follows.of_cold cold
  refine ⟨?_, ?_⟩
  · intro q member growing j found
    obtain ⟨p, kept, grows, same⟩ := before q member growing
    obtain ⟨k, moved, bound⟩ := steps.stop_moves faithful idle kept grows
    rw [same, found] at moved
    obtain rfl := Option.some.inj moved
    omega
  · intro none
    apply empty
    have sub := m.keptPulses_sublist next.window n
    rw [none] at sub
    exact List.eq_nil_of_sublist_nil sub

/-- The newest pulse grows with the last samples of the window. -/
structure Heats (c : MeterSettings α) (m : Meter α) (first last : Sample α) (line : List (Sample α)) :
    Prop where
  faithful : m.Faithful c
  suffix : line <:+ m.window.samples
  head : line.head? = some first
  final : line.getLast? = some last
  newest : ∃ p older, m.pulses = p :: older ∧ p.phase = .growing ∧ p.start = first.time ∧
    p.stop = last.time

/-- After more cold samples than the reach, a hot one begins a pulse at the sample before it. -/
theorem Steps.begins (steps : Steps c m next z x n) (faithful : m.Faithful c)
    (idle : m.Idle c.reach) (last : [z] <:+ m.window.samples) (positive : 0 < c.span)
    (recent : x.time < z.time + c.span)
    (hot : Scalar.lt c.threshold (Window.rateBetween z x) = true) :
    next.Heats c z x [z, x] := by
  have settings := faithful.settings
  have far : ∀ p ∈ m.keptPulses next.window n, p.phase = .growing →
      m.settings.reach < (next.window.countAfter? p.stop).getD 0 := by
    intro p kept growing
    obtain ⟨j, found, bound⟩ := steps.stop_moves faithful idle kept growing
    rw [steps.faithful.sound.countAfter?_of_indexOf? found, Option.getD_some, settings]
    omega
  rw [← settings] at hot
  obtain ⟨older, pulses⟩ := steps.follows.begins hot far
  refine ⟨steps.faithful, ?_, rfl, rfl, _, older, pulses, rfl, rfl, rfl⟩
  exact record_appends steps.recorded faithful positive last (List.forall_mem_singleton.mpr recent)

private theorem keptPulses_cons (sound : next.window.Sound) {p : Pulse α} {older : Pulses α}
    (pulses : m.pulses = p :: older) {first : Sample α} (present : first ∈ next.window.samples)
    (start : p.start = first.time) :
    ∃ older', m.keptPulses next.window n = p :: older' := by
  rw [keptPulses, pulses]
  split
  · exact ⟨older, rfl⟩
  · obtain ⟨i, bound, rfl⟩ := List.mem_iff_getElem.mp present
    have nonempty : 0 < next.window.samples.length := by omega
    have oldest : next.window.oldest? = some next.window.samples[0] := by
      rw [Window.oldest?_eq, List.head?_eq_getElem?, List.getElem?_eq_getElem nonempty]
    have order := (sound.time_le_iff (List.getElem?_eq_getElem nonempty)
      (List.getElem?_eq_getElem bound)).mpr (Nat.zero_le i)
    rw [← start] at order
    rw [Pulses.dropExpired, oldest]
    exact ⟨_, List.filter_cons_of_pos (decide_eq_true order)⟩

/-- While the first of its samples is in the window, a hot sample lets a pulse that ends with the
newest one go on. -/
theorem Steps.extends {first : Sample α} {line : List (Sample α)}
    (steps : Steps c m next z x n) (heats : m.Heats c first z line) (positive : 0 < c.span)
    (recent : ∀ a ∈ line, x.time < a.time + c.span)
    (hot : Scalar.lt c.threshold (Window.rateBetween z x) = true) :
    next.Heats c first x (line ++ [x]) := by
  have settings := heats.faithful.settings
  have sound := steps.faithful.sound
  have longer : line ++ [x] <:+ next.window.samples :=
    record_appends steps.recorded heats.faithful positive heats.suffix recent
  have member : first ∈ line := List.mem_of_head? heats.head
  obtain ⟨p, older, pulses, growing, start, stop⟩ := heats.newest
  obtain ⟨older', kept⟩ := keptPulses_cons (n := n) sound pulses
    (longer.subset (List.mem_append_left _ member)) start
  have near : (next.window.countAfter? p.stop).getD 0 ≤ m.settings.reach := by
    have two := steps.newest.two
    rw [stop, sound.countAfter?_of_indexOf? (sound.indexOf?_of_sample steps.newest.first),
      Option.getD_some, MeterSettings.reach]
    omega
  have follows := steps.follows
  rw [kept] at follows
  rw [← settings] at hot
  have after := follows.extends hot growing near
  refine ⟨steps.faithful, longer, ?_, ?_, _, older', after, growing, start, rfl⟩
  · rw [List.head?_append, heats.head]
    rfl
  · exact List.getLast?_concat

end

/-- What is answered about a growing pulse: the slope of the line through its samples. -/
theorem Heats.slopeSince? {first last : Sample α} {line : List (Sample α)}
    (heats : m.Heats c first last line) (long : c.minimum ≤ last.time - first.time)
    (since : Duration) (later : since ≤ first.time) :
    m.slopeSince? since = some (LineFit.ofPoints c.outlierFactor
      (PulseFit.timedReadings first.time line)).slope := by
  obtain ⟨p, older, pulses, growing, start, stop⟩ := heats.newest
  have sound := heats.faithful.sound
  have member : p ∈ m.pulses := by
    rw [pulses]
    exact List.mem_cons_self
  obtain ⟨before, whole⟩ := heats.suffix
  have size : m.window.samples.length = before.length + line.length := by
    rw [← whole, List.length_append]
  have nonempty : 0 < line.length := List.length_pos_of_mem (List.mem_of_head? heats.head)
  have firstAt : m.window.samples[before.length]? = some first := by
    rw [← whole, List.getElem?_append_right (Nat.le_refl _), Nat.sub_self, ← List.head?_eq_getElem?]
    exact heats.head
  have lastAt : m.window.samples[before.length + (line.length - 1)]? = some last := by
    rw [← whole, List.getElem?_append_right (Nat.le_add_right _ _), Nat.add_sub_cancel_left,
      ← List.getLast?_eq_getElem?]
    exact heats.final
  have fit := heats.faithful.fitted p member _ _
    (by rw [start]; exact sound.indexOf?_of_sample firstAt)
    (by rw [stop]; exact sound.indexOf?_of_sample lastAt)
  have stretch : m.window.samples.extract before.length (before.length + (line.length - 1) + 1) =
      line := by
    rw [List.extract_eq_take_drop, ← whole, List.drop_left, List.take_of_length_le (by omega)]
  have counts : (decide (since ≤ p.start) && decide (m.settings.minimum ≤ p.length)) = true := by
    rw [Pulse.length, start, stop, heats.faithful.settings, decide_eq_true later,
      decide_eq_true long]
    rfl
  have found : m.pulses.find? (fun p => decide (since ≤ p.start) &&
      decide (m.settings.minimum ≤ p.length)) = some p := by
    rw [pulses]
    exact List.find?_cons_of_pos counts
  have asked : m.slopeSince? since = some p.slope := congrArg (Option.map Pulse.slope) found
  rw [asked, Pulse.slope, fit, stretch, start]
  rfl

end Meter
end Calorimetry
