import Calorimetry.Proofs.Stream
import Mathlib.Data.List.Forall2

/-! Pulses known by positions instead of times. Positions have to be counted anew whenever samples leave
the window, and a pulse whose start falls below zero is dropped; otherwise the rules are the same.
Looked up in the window, the times of the tracked pulses are these positions after every sample. -/

namespace Calorimetry
variable {α : Type} [Scalar α]

/-- A pulse known by the positions of its first and last sample, counted from the oldest sample that
is still there. -/
structure Mark (α : Type) where
  first : Int
  last : Int
  rate : α
  phase : Phase

namespace Mark

/-- The mark after `n` samples have left. -/
def shift (n : Nat) (m : Mark α) : Mark α := { m with first := m.first - n, last := m.last - n }

/-- What a rate above the threshold begins at position `newest`. -/
def begun (c : MeterSettings α) (newest : Int) (rate : α) : List (Mark α) :=
  if Scalar.lt c.threshold rate then [⟨newest - 1, newest, rate, .growing⟩] else []

/-- What the newest rate does, which leads to the sample at position `newest`. -/
def advance (c : MeterSettings α) (newest : Int) (rate : α) : List (Mark α) → List (Mark α)
  | [] => begun c newest rate
  | m :: older =>
    if m.phase ≠ .growing then begun c newest rate ++ m :: older
    else if newest - m.last ≤ c.reach then
      if Scalar.lt c.threshold rate then { m with last := newest, rate } :: older else m :: older
    else begun c newest rate ++ { m with phase := .ending } :: older

def timeAt (samples : List (Sample α)) (i : Int) : Duration :=
  (samples[i.toNat]?.map Sample.time).getD 0

def length (samples : List (Sample α)) (m : Mark α) : Duration :=
  timeAt samples m.last - timeAt samples m.first

/-- A mark that has ended is frozen, or dropped if its pulse is too short. -/
def settleOne (minimum : Duration) (samples : List (Sample α)) (m : Mark α) : Option (Mark α) :=
  if m.phase ≠ .ending then some m
  else if m.length samples < minimum then none
  else some { m with phase := .frozen }

/-- The marks after the window has moved to `w` and lost `dropped` samples. -/
def follow (c : MeterSettings α) (w : Window α) (dropped : Nat) (marks : List (Mark α)) :
    List (Mark α) :=
  let kept := (marks.map (shift dropped)).filter fun m => 0 ≤ m.first
  let advanced := match w.latestRate? with
    | some rate => advance c (w.size - 1) rate kept
    | none => kept
  advanced.filterMap (settleOne c.minimum w.samples)

end Mark

/-- A measurement that knows its pulses by positions, newest first. -/
structure PositionMeter (α : Type) where
  window : Window α
  marks : List (Mark α) := []

def PositionMeter.start (c : MeterSettings α) : PositionMeter α := { window := { span := c.span } }

/-- A refused sample changes nothing. -/
def PositionMeter.feed (c : MeterSettings α) (m : PositionMeter α) (x : Sample α) : PositionMeter α :=
  match m.window.push x with
  | .error _ => m
  | .ok (w, dropped) => ⟨w, Mark.follow c w dropped m.marks⟩

/-- The times of the pulse, looked up in the window, are the positions of the mark. -/
structure Pulse.At (w : Window α) (p : Pulse α) (m : Mark α) : Prop where
  start : (w.search? p.start).map Int.ofNat = some m.first
  stop : (w.search? p.stop).map Int.ofNat = some m.last
  rate : p.rate = m.rate
  phase : p.phase = m.phase

def Pulse.mark (p : Pulse α) (i j : Nat) : Mark α := ⟨i, j, p.rate, p.phase⟩

def Pulse.Marked (threshold : α) (w : Window α) (p : Pulse α) (m : Mark α) : Prop :=
  ∃ i j, p.Spans threshold w i j ∧ m = p.mark i j

private theorem Pulse.Marked.at {threshold : α} {w : Window α} {p : Pulse α} {m : Mark α}
    (marked : p.Marked threshold w m) (sound : w.Sound) : p.At w m := by
  obtain ⟨i, j, spans, rfl⟩ := marked
  refine ⟨?_, ?_, rfl, rfl⟩
  · rw [sound.search?_eq, spans.start]
    rfl
  · rw [sound.search?_eq, spans.stop]
    rfl

namespace Mark
variable {threshold : α} {w w' : Window α} {s : Sample α} {n : Nat} {ps : Pulses α}
  {marks : List (Mark α)}

omit [Scalar α] in
private theorem shift_first_nonneg (p : Pulse α) (i j n : Nat) : 0 ≤ ((p.mark i j).shift n).first ↔ n ≤ i := by
  change (0 : Int) ≤ (i : Int) - n ↔ n ≤ i
  omega

omit [Scalar α] in
private theorem shift_mark (p : Pulse α) {i j n : Nat} (stays : n ≤ i) (ordered : i < j) :
    (p.mark i j).shift n = p.mark (i - n) (j - n) := by
  have first : (i : Int) - n = (i - n : Nat) := by omega
  have last : (j : Int) - n = (j - n : Nat) := by omega
  simp only [shift, Pulse.mark, first, last]

private theorem kept (entered : w.Entered w' s n) (sound : w.Sound)
    (marked : List.Forall₂ (Pulse.Marked threshold w) ps marks) (oldest : Sample α)
    (there : w'.oldest? = some oldest) :
    List.Forall₂ (Pulse.Marked threshold w') (ps.filter fun p => oldest.time ≤ p.start)
      ((marks.map (shift n)).filter fun m => 0 ≤ m.first) := by
  induction marked with
  | nil => exact .nil
  | @cons p m older rest first _ ih =>
    obtain ⟨i, j, spans, rfl⟩ := first
    -- The start is still there exactly if no more samples have left than stood before it.
    obtain ⟨front, same, stays⟩ := entered.oldest_le_iff sound spans.start
    cases Option.some.inj (same.symm.trans there)
    have agree := stays.trans (shift_first_nonneg p i j n).symm
    rw [List.map_cons]
    rcases Nat.lt_or_ge i n with gone | remains
    · have early : ¬ oldest.time ≤ p.start := fun late => Nat.not_le_of_lt gone (stays.mp late)
      rw [List.filter_cons_of_neg (by simpa only [decide_eq_true_eq] using early),
        List.filter_cons_of_neg (by simpa only [decide_eq_true_eq] using mt agree.mpr early)]
      exact ih
    · have late := stays.mpr remains
      rw [List.filter_cons_of_pos (by simpa only [decide_eq_true_eq] using late),
        List.filter_cons_of_pos (by simpa only [decide_eq_true_eq] using agree.mp late),
        shift_mark p remains spans.ordered]
      exact .cons ⟨i - n, j - n, spans.entered entered sound remains, rfl⟩ ih

variable {c : MeterSettings α} {newest : Int} {rate : α} {minimum : Duration} {samples : List (Sample α)}

omit [Scalar α] in
private theorem settle_cons_stays {m : Mark α} (older : List (Mark α)) (stays : m.phase ≠ .ending) :
    (m :: older).filterMap (settleOne minimum samples) =
      m :: older.filterMap (settleOne minimum samples) := by
  apply List.filterMap_cons_some
  rw [settleOne, if_pos stays]

omit [Scalar α] in
private theorem settle_frozen (frozen : ∀ m ∈ marks, m.phase = .frozen) :
    marks.filterMap (settleOne minimum samples) = marks := by
  induction marks with
  | nil => rfl
  | cons m older ih =>
    obtain ⟨first, rest⟩ := List.forall_mem_cons.mp frozen
    rw [settle_cons_stays older (by simp [first]), ih rest]

def retired (minimum : Duration) (samples : List (Sample α)) (m : Mark α) : List (Mark α) :=
  if m.length samples < minimum then [] else [{ m with phase := .frozen }]

omit [Scalar α] in
private theorem settle_ending (m : Mark α) {older : List (Mark α)} (frozen : ∀ m ∈ older, m.phase = .frozen) :
    ({ m with phase := .ending } :: older).filterMap (settleOne minimum samples) =
      retired minimum samples m ++ older := by
  have rest : older.filterMap (settleOne minimum samples) = older := settle_frozen frozen
  rw [retired]
  split
  next short =>
    have dropped : settleOne minimum samples { m with phase := .ending } = none := by
      rw [settleOne, if_neg (by simp)]
      exact if_pos short
    rw [List.filterMap_cons_none dropped, rest]
    rfl
  next long =>
    have ends : settleOne minimum samples { m with phase := .ending } =
        some { m with phase := .frozen } := by
      rw [settleOne, if_neg (by simp)]
      exact if_neg long
    rw [List.filterMap_cons_some ends, rest]
    rfl

private theorem settle_begun (c : MeterSettings α) (newest : Int) (rate : α) (older : List (Mark α)) :
    (begun c newest rate ++ older).filterMap (settleOne minimum samples) =
      begun c newest rate ++ older.filterMap (settleOne minimum samples) := by
  rw [begun]
  split
  · exact settle_cons_stays older (by simp)
  · rfl

private theorem advance_rest (c : MeterSettings α) (newest : Int) (rate : α)
    (frozen : ∀ m ∈ marks, m.phase = .frozen) :
    (advance c newest rate marks).filterMap (settleOne minimum samples) =
      begun c newest rate ++ marks := by
  have begins : advance c newest rate marks = begun c newest rate ++ marks := by
    cases marks with
    | nil => exact (List.append_nil _).symm
    | cons m older => rw [advance, if_pos (by simp [frozen m List.mem_cons_self])]
  rw [begins, settle_begun, settle_frozen frozen]

private theorem advance_near (c : MeterSettings α) (newest : Int) (rate : α) {m : Mark α}
    {older : List (Mark α)} (growing : m.phase = .growing) (near : newest - m.last ≤ c.reach)
    (frozen : ∀ m ∈ older, m.phase = .frozen) :
    (advance c newest rate (m :: older)).filterMap (settleOne minimum samples) =
      (if Scalar.lt c.threshold rate then { m with last := newest, rate := rate } else m) :: older := by
  rw [advance, if_neg (by simp [growing]), if_pos near]
  split
  · rw [settle_cons_stays older (by simp [growing]), settle_frozen frozen]
  · rw [settle_cons_stays older (by simp [growing]), settle_frozen frozen]

private theorem advance_far (c : MeterSettings α) (newest : Int) (rate : α) {m : Mark α}
    {older : List (Mark α)} (growing : m.phase = .growing) (far : ¬ newest - m.last ≤ c.reach)
    (frozen : ∀ m ∈ older, m.phase = .frozen) :
    (advance c newest rate (m :: older)).filterMap (settleOne minimum samples) =
      begun c newest rate ++ (retired minimum samples m ++ older) := by
  rw [advance, if_neg (by simp [growing]), if_neg far, settle_begun, settle_ending m frozen]

end Mark

namespace Meter
variable {m : Meter α} {w : Window α} {a b : Sample α}

private theorem begun_marked (sound : w.Sound) (newest : Newest w a b) :
    List.Forall₂ (Pulse.Marked m.settings.threshold w) (m.begun w a b)
      (Mark.begun m.settings (w.size - 1) (Window.rateBetween a b)) := by
  have spans := begun_spans (m := m) sound newest
  have two := newest.two
  rw [begun] at spans ⊢
  rw [Mark.begun]
  split
  next hot =>
    rw [if_pos hot] at spans
    refine .cons ⟨_, _, (spans _ (List.mem_singleton_self _)).2, ?_⟩ .nil
    have first : (w.size : Int) - 1 - 1 = (w.size - 2 : Nat) := by omega
    have last : (w.size : Int) - 1 = (w.size - 1 : Nat) := by omega
    rw [first, last]
    rfl
  · exact .nil

private theorem grown_marked (sound : w.Sound) (newest : Newest w a b) {p : Pulse α} {i j : Nat}
    (spans : p.Spans m.settings.threshold w i j) :
    (m.grown w a b p).Marked m.settings.threshold w
      (if Scalar.lt m.settings.threshold (Window.rateBetween a b) then
        { p.mark i j with last := w.size - 1, rate := Window.rateBetween a b } else p.mark i j) := by
  obtain ⟨k, _, grown⟩ := grown_spans (m := m) sound newest spans
  have two := newest.two
  refine ⟨i, k, grown, ?_⟩
  have stop := grown.stop
  rw [Meter.grown] at stop ⊢
  split
  next hot =>
    rw [if_pos hot] at stop
    have last : k = w.size - 1 :=
      Option.some.inj (stop.symm.trans (sound.indexOf?_of_sample newest.second))
    have position : (w.size : Int) - 1 = (w.size - 1 : Nat) := by omega
    rw [last, position]
    rfl
  next cold =>
    rw [if_neg cold] at stop
    have same : k = j := Option.some.inj (stop.symm.trans spans.stop)
    rw [same]
    rfl

private theorem mark_length {p : Pulse α} {i j : Nat} {threshold : α} (spans : p.Spans threshold w i j) :
    (p.mark i j).length w.samples = p.length := by
  obtain ⟨first, there, starts⟩ := w.sample_of_indexOf? _ _ spans.start
  obtain ⟨last, present, stops⟩ := w.sample_of_indexOf? _ _ spans.stop
  simp [Mark.length, Mark.timeAt, Pulse.mark, there, present, starts, stops, Pulse.length]

private theorem retired_marked {p : Pulse α} {i j : Nat} (spans : p.Spans m.settings.threshold w i j) :
    List.Forall₂ (Pulse.Marked m.settings.threshold w) (m.retired w p)
      (Mark.retired m.settings.minimum w.samples (p.mark i j)) := by
  rw [retired, Mark.retired, mark_length spans]
  split
  · exact .nil
  · exact .cons ⟨i, j, ⟨spans.start, spans.stop, spans.ordered, spans.first_hot, spans.last_rate,
      spans.last_hot⟩, rfl⟩ .nil

private theorem marks_frozen {threshold : α} {ps : Pulses α} {marks : List (Mark α)}
    (marked : List.Forall₂ (Pulse.Marked threshold w) ps marks)
    (frozen : ∀ p ∈ ps, p.phase = .frozen) : ∀ m ∈ marks, m.phase = .frozen := by
  induction marked with
  | nil => exact fun _ member => absurd member List.not_mem_nil
  | cons first _ ih =>
    obtain ⟨i, j, _, rfl⟩ := first
    obtain ⟨rests, others⟩ := List.forall_mem_cons.mp frozen
    exact List.forall_mem_cons.mpr ⟨rests, ih others⟩

private theorem count_iff (sound : w.Sound) {p : Pulse α} {i j : Nat} {threshold : α} (reach : Nat)
    (spans : p.Spans threshold w i j) :
    (w.size : Int) - 1 - (p.mark i j).last ≤ reach ↔ (w.countAfter? p.stop).getD 0 ≤ reach := by
  have bound := w.indexOf?_lt _ _ spans.stop
  rw [sound.countAfter?_of_indexOf? spans.stop, Option.getD_some]
  change (w.size : Int) - 1 - (j : Int) ≤ reach ↔ w.size - 1 - j ≤ reach
  omega

/-- The rules say the same about times and about positions. -/
private theorem Follows.marked {kept next : Pulses α} {marks : List (Mark α)}
    (follows : m.Follows w a b kept next) (sound : w.Sound) (newest : Newest w a b)
    (marked : List.Forall₂ (Pulse.Marked m.settings.threshold w) kept marks) :
    List.Forall₂ (Pulse.Marked m.settings.threshold w) next
      ((Mark.advance m.settings (w.size - 1) (Window.rateBetween a b) marks).filterMap
        (Mark.settleOne m.settings.minimum w.samples)) := by
  have begins := begun_marked (m := m) sound newest
  cases follows with
  | rest _ frozen =>
    rw [Mark.advance_rest _ _ _ (marks_frozen marked frozen)]
    exact List.rel_append begins marked
  | goOn p older growing frozen near =>
    obtain ⟨mark, behind, ⟨i, j, spans, rfl⟩, rest, rfl⟩ := List.forall₂_cons_left_iff.mp marked
    rw [Mark.advance_near _ _ _ growing ((count_iff sound _ spans).mpr near)
      (marks_frozen rest frozen)]
    exact .cons (grown_marked sound newest spans) rest
  | finish p older growing frozen far =>
    obtain ⟨mark, behind, ⟨i, j, spans, rfl⟩, rest, rfl⟩ := List.forall₂_cons_left_iff.mp marked
    have away := mt (count_iff sound _ spans).mp (Nat.not_le_of_lt far)
    rw [Mark.advance_far _ _ _ growing away (marks_frozen rest frozen)]
    exact List.rel_append begins (List.rel_append (retired_marked spans) rest)

/-- The pulses that are kept are those whose start is in the new window, also when nothing has left. -/
theorem keptPulses_eq_filter {c : MeterSettings α} {n : Nat} {x oldest : Sample α}
    (consistent : m.Consistent c) (entered : m.window.Entered w x n) (there : w.oldest? = some oldest) :
    m.keptPulses w n = m.pulses.filter fun p => oldest.time ≤ p.start := by
  rw [keptPulses]
  split
  next none =>
    apply (List.filter_eq_self.mpr _).symm
    intro p member
    obtain ⟨i, _, spans⟩ := consistent.placed.spans p member
    obtain ⟨front, same, stays⟩ := entered.oldest_le_iff consistent.sound spans.start
    cases Option.some.inj (same.symm.trans there)
    exact decide_eq_true (stays.mpr (by omega))
  · rw [Pulses.dropExpired, there]

/-- Both measurements have the same window, and the marks are those of the pulses. -/
structure Mirrors (c : MeterSettings α) (m : Meter α) (r : PositionMeter α) : Prop where
  window : m.window = r.window
  marked : List.Forall₂ (Pulse.Marked c.threshold m.window) m.pulses r.marks

private theorem Mirrors.follow {c : MeterSettings α} {r : PositionMeter α} {next : Meter α} {x : Sample α}
    {n : Nat} (mirrors : m.Mirrors c r) (consistent : m.Consistent c) (positive : 0 < c.span)
    (entered : m.window.Entered next.window x n) (accepted : m.record x = .ok next) :
    List.Forall₂ (Pulse.Marked c.threshold next.window) next.pulses
      (Mark.follow c next.window n r.marks) := by
  obtain ⟨n', entered', _, _, step⟩ := record_cases consistent positive accepted
  have same : n' = n := by
    have size := entered.size
    have size' := entered'.size
    have bound := entered.le_size
    have bound' := entered'.le_size
    omega
  subst same
  have nonempty : 0 < next.window.samples.length := by
    have bound := entered.le_size
    have size := entered.size
    rw [← Window.size_eq]
    omega
  have there : next.window.oldest? = some next.window.samples[0] := by
    rw [Window.oldest?_eq, List.head?_eq_getElem?, List.getElem?_eq_getElem nonempty]
  have kept := Mark.kept entered consistent.sound mirrors.marked _ there
  rw [← keptPulses_eq_filter consistent entered there] at kept
  rw [Mark.follow]
  rcases step with ⟨alone, empty, none⟩ | ⟨a, newest, follows⟩
  · rcases entered.sound.latest_cases with ⟨_, latest⟩ | ⟨two, _⟩
    · rw [empty] at kept
      rw [none, latest, List.forall₂_nil_left_iff.mp kept]
      exact .nil
    · omega
  · rcases entered.sound.latest_cases with ⟨few, _⟩ | ⟨_, a', b', _, latest, first, second⟩
    · have two := newest.two
      omega
    · cases Option.some.inj (first.symm.trans newest.first)
      cases Option.some.inj (second.symm.trans newest.second)
      rw [latest]
      rw [← consistent.settings] at kept ⊢
      exact follows.marked entered.sound newest kept

private theorem Mirrors.feed {c : MeterSettings α} {r : PositionMeter α} (mirrors : m.Mirrors c r)
    (consistent : m.Consistent c) (positive : 0 < c.span) (x : Sample α) :
    (m.feed x).Mirrors c (r.feed c x) := by
  rw [PositionMeter.feed, ← mirrors.window]
  cases pushed : m.window.push x with
  | error e =>
    have refused : m.feed x = m := by rw [Meter.feed, record, pushed]; rfl
    rw [refused]
    exact mirrors
  | ok result =>
    obtain ⟨w, n⟩ := result
    have accepted : m.record x = .ok { m with window := w, pulses := m.follow w n } := by
      rw [record, pushed]
      rfl
    have fed : m.feed x = { m with window := w, pulses := m.follow w n } := by
      rw [Meter.feed, accepted]
      rfl
    have entered := m.window.push_entered w x n consistent.sound
      (by rw [consistent.span]; exact positive) pushed
    rw [fed]
    exact ⟨rfl, mirrors.follow consistent positive entered accepted⟩

private theorem feed_all_mirrors {c : MeterSettings α} (positive : 0 < c.span) (t : Table α)
    (xs : List (Sample α)) :
    (xs.foldl Meter.feed (start c t)).Mirrors c (xs.foldl (PositionMeter.feed c) (.start c)) := by
  induction xs using List.reverseRecOn with
  | nil => exact ⟨rfl, .nil⟩
  | append_singleton xs x ih =>
    rw [List.foldl_concat, List.foldl_concat]
    exact ih.feed (feed_all_took positive t xs).1 positive x

end Meter

/-- Knowing pulses by times is as good as knowing them by positions that are counted anew with every
sample that leaves. After any stream both measurements have the same window and the same pulses in
the same order: the times, looked up in the window, are the positions. -/
theorem pulses_are_marks {c : MeterSettings α} {points : List (Point α)} {m : Meter α}
    (built : Meter.ofSettings c points = .ok m) (s : Session α) (fresh : s.meter = m)
    (passive : s.Passive) (stream : List (Sample α)) :
    let reached := (stream.foldl Session.ingest s).meter
    let reference := stream.foldl (PositionMeter.feed c) (.start c)
    reached.window = reference.window ∧
      List.Forall₂ (Pulse.At reached.window) reached.pulses reference.marks := by
  intro reached reference
  obtain ⟨valid, t, _, rfl⟩ := Meter.ofSettings_eq_ok built
  have positive := MeterSettings.span_pos valid
  have fed : reached = stream.foldl Meter.feed (Meter.start c t) := by
    rw [← fresh]
    exact Session.ingest_all_passive stream s passive
  have mirrors := Meter.feed_all_mirrors positive t stream
  have sound := (Meter.feed_all_took positive t stream).1.sound
  rw [fed]
  exact ⟨mirrors.window, mirrors.marked.imp fun _ _ marked => marked.at sound⟩

namespace Climb

def settings : MeterSettings Float := { span := Duration.ofSeconds 3, threshold := 0.5 }

def watched : Session Float := { meter := Meter.start settings Table.empty }

-- With the last sample the start of the growing pulse leaves the window, and the next pulse begins.
def stream : List (Sample Float) :=
  [.plain (Duration.ofSeconds 0) 0, .plain (Duration.ofSeconds 1) 1, .plain (Duration.ofSeconds 1) 5,
    .plain (Duration.ofSeconds 2) 2, .plain (Duration.ofSeconds 3) 3]

end Climb

theorem pulses_are_marks_climb :
    let reached := (Climb.stream.foldl Session.ingest Climb.watched).meter
    let reference := Climb.stream.foldl (PositionMeter.feed Climb.settings) (.start Climb.settings)
    Meter.ofSettings Climb.settings [] = .ok (Meter.start Climb.settings Table.empty) ∧
      Climb.watched.meter = Meter.start Climb.settings Table.empty ∧ Climb.watched.Passive ∧
      reference.marks.map (fun m => (m.first, m.last)) = [(1, 2)] ∧
      reached.window = reference.window ∧
      List.Forall₂ (Pulse.At reached.window) reached.pulses reference.marks := by
  have built : Meter.ofSettings Climb.settings [] = .ok (Meter.start Climb.settings Table.empty) := rfl
  have passive : Climb.watched.Passive := fun _ member => absurd member List.not_mem_nil
  refine ⟨built, rfl, passive, by decide, ?_⟩
  exact pulses_are_marks built Climb.watched rfl passive Climb.stream

end Calorimetry
