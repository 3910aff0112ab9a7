import Calorimetry.Proofs.Window
import Mathlib.Data.List.Basic
import Mathlib.Data.List.Induction

/-! The window is a view of all samples that were accepted since it was last cleared. Samples leave it
a few at a time and from the front only, by a cutoff that moves with the newest one, and what is left
is still what one look at the whole history would keep: the samples that are less than a span older
than the newest. -/

namespace Calorimetry
variable {α : Type} [Scalar α]

/-- Whether `s` can come after the samples taken so far. -/
def Sample.canFollow (taken : List (Sample α)) (s : Sample α) : Bool :=
  Scalar.isFinite s.reading && taken.getLast?.all fun last => last.time < s.time

/-- The samples of a stream that are accepted, each one judged by those accepted before it. -/
def Sample.accepted (stream : List (Sample α)) : List (Sample α) :=
  stream.foldl (fun taken s => if canFollow taken s then taken ++ [s] else taken) []

theorem Sample.accepted_concat (stream : List (Sample α)) (s : Sample α) :
    accepted (stream ++ [s]) =
      if canFollow (accepted stream) s then accepted stream ++ [s] else accepted stream :=
  List.foldl_concat ..

theorem Sample.canFollow_iff (taken : List (Sample α)) (s : Sample α) :
    canFollow taken s = true ↔
      Scalar.isFinite s.reading = true ∧ ∀ last, taken.getLast? = some last → last.time < s.time := by
  rw [canFollow, Bool.and_eq_true]
  cases taken.getLast? <;> simp

namespace Window

/-! ## Parts of an increasing list -/

section
variable {β : Type} {xs : List β} {p : β → Bool}

private theorem takeWhile_eq_filter (lost : xs.Pairwise fun a b => p b = true → p a = true) :
    xs.takeWhile p = xs.filter p := by
  induction xs with
  | nil => rfl
  | cons a rest ih =>
    obtain ⟨first, later⟩ := List.pairwise_cons.mp lost
    cases holds : p a with
    | true => rw [List.takeWhile_cons_of_pos holds, List.filter_cons_of_pos holds, ih later]
    | false =>
      have none : rest.filter p = [] := by
        apply List.filter_eq_nil_iff.mpr
        intro b member has
        rw [first b member has] at holds
        contradiction
      rw [List.takeWhile_cons_of_neg (by simp [holds]), List.filter_cons_of_neg (by simp [holds]), none]

private theorem drop_takeWhile_eq_filter (lost : xs.Pairwise fun a b => p b = true → p a = true) :
    xs.drop (xs.takeWhile p).length = xs.filter fun a => !p a := by
  induction xs with
  | nil => rfl
  | cons a rest ih =>
    obtain ⟨first, later⟩ := List.pairwise_cons.mp lost
    cases holds : p a with
    | true =>
      rw [List.takeWhile_cons_of_pos holds, List.length_cons, List.drop_succ_cons, ih later,
        List.filter_cons_of_neg (by simp [holds])]
    | false =>
      have others : rest.filter (fun a => !p a) = rest := by
        apply List.filter_eq_self.mpr
        intro b member
        cases has : p b with
        | false => rfl
        | true =>
          rw [first b member has] at holds
          contradiction
      rw [List.takeWhile_cons_of_neg (by simp [holds]), List.filter_cons_of_pos (by simp [holds]), others]
      rfl

end

/-! ## Looking for a time -/

/-- Looks for `t` where the samples stamped before it end. -/
def search? (w : Window α) (t : Duration) : Option Nat :=
  (w.samples[w.lowerBound t]?.filter fun s => s.time = t).map fun _ => w.lowerBound t

omit [Scalar α] in
private theorem before_lost {samples : List (Sample α)}
    (increasing : samples.Pairwise fun a b => a.time < b.time) (p : Duration → Bool)
    (down : ∀ t u, t < u → p u = true → p t = true) :
    samples.Pairwise fun a b => p b.time = true → p a.time = true :=
  increasing.imp fun before => down _ _ before

namespace Sound
variable {w : Window α}

private theorem lowerBound_eq (sound : w.Sound) (t : Duration) :
    w.lowerBound t = (w.samples.filter fun s => s.time < t).length := by
  rw [lowerBound, ← Queue.takeWhile_toList, ← samples, takeWhile_eq_filter]
  apply before_lost sound.increasing (fun u => u < t)
  intro u v before
  simp only [decide_eq_true_eq]
  exact Nat.lt_trans before

private theorem indexOf?_iff (sound : w.Sound) (t : Duration) (i : Nat) :
    w.indexOf? t = some i ↔ ∃ s, w.samples[i]? = some s ∧ s.time = t := by
  constructor
  · exact w.sample_of_indexOf? t i
  · rintro ⟨s, present, rfl⟩
    exact sound.indexOf?_of_sample present

private theorem lowerBound_of_sample (sound : w.Sound) {i : Nat} {s : Sample α}
    (present : w.samples[i]? = some s) : w.lowerBound s.time = i := by
  obtain ⟨bound, rfl⟩ := List.getElem?_eq_some_iff.mp present
  have before : (w.samples.take i).filter (fun a => a.time < w.samples[i].time) = w.samples.take i := by
    apply List.filter_eq_self.mpr
    intro a member
    obtain ⟨j, inside, rfl⟩ := List.mem_iff_getElem.mp member
    rw [List.length_take] at inside
    rw [List.getElem_take]
    exact decide_eq_true
      (List.pairwise_iff_getElem.mp sound.increasing j i (by omega) bound (by omega))
  have after : (w.samples.drop i).filter (fun a => a.time < w.samples[i].time) = [] := by
    apply List.filter_eq_nil_iff.mpr
    intro a member
    obtain ⟨j, inside, rfl⟩ := List.mem_iff_getElem.mp member
    rw [List.length_drop] at inside
    rw [List.getElem_drop, decide_eq_true_eq, Nat.not_lt]
    exact (sound.time_le_iff (List.getElem?_eq_getElem bound)
      (List.getElem?_eq_getElem (by omega))).mpr (by omega)
  rw [sound.lowerBound_eq]
  calc (w.samples.filter fun a => a.time < w.samples[i].time).length
      = ((w.samples.take i ++ w.samples.drop i).filter fun a => a.time < w.samples[i].time).length := by
        rw [List.take_append_drop]
    _ = i := by
        rw [List.filter_append, before, after, List.append_nil, List.length_take]
        omega

/-- The search ends at the sample stamped `t`, if there is one. -/
theorem search?_eq (sound : w.Sound) (t : Duration) : w.search? t = w.indexOf? t := by
  rw [search?]
  cases found : w.indexOf? t with
  | some i =>
    obtain ⟨s, present, rfl⟩ := (sound.indexOf?_iff t i).mp found
    rw [sound.lowerBound_of_sample present, present, Option.filter_some, if_pos (decide_eq_true rfl)]
    rfl
  | none =>
    cases there : w.samples[w.lowerBound t]? with
    | none => rfl
    | some s =>
      have other : s.time ≠ t := by
        rintro rfl
        rw [sound.indexOf?_of_sample there] at found
        contradiction
      rw [Option.filter_some, if_neg (by simp [other])]
      rfl

end Sound

/-! ## The history of a window -/

inductive Edit (α : Type) where
  | push (s : Sample α)
  | clear

/-- A refused sample leaves the window as it was. -/
def edit (w : Window α) : Edit α → Window α
  | .push s => ((w.push s).toOption.map Prod.fst).getD w
  | .clear => w.clear

def Edit.sinceClear (edits : List (Edit α)) : List (Sample α) :=
  edits.foldl (fun pushed e => match e with
    | .push s => pushed ++ [s]
    | .clear => []) []

omit [Scalar α] in
private theorem Edit.sinceClear_push (edits : List (Edit α)) (s : Sample α) :
    sinceClear (edits ++ [.push s]) = sinceClear edits ++ [s] := List.foldl_concat ..

omit [Scalar α] in
private theorem Edit.sinceClear_clear (edits : List (Edit α)) : sinceClear (edits ++ [.clear]) = [] :=
  List.foldl_concat ..

/-- Whether `s` is in a window of the given span whose newest sample is stamped `latest`. Before one
span has passed everything is. -/
def retains (span latest : Duration) (s : Sample α) : Bool := latest < span || latest - span < s.time

/-- What a window of the given span keeps of the samples taken. -/
def view (span : Duration) (taken : List (Sample α)) : List (Sample α) :=
  taken.filter fun s => taken.getLast?.all fun last => retains span last.time s

private theorem after_cutoff_iff (latest span time : Nat) :
    latest < span ∨ latest - span < time ↔ latest < time + span := by omega

omit [Scalar α] in
theorem retains_iff (span latest : Duration) (s : Sample α) :
    retains span latest s = true ↔ latest < s.time + span := by
  simp only [retains, Bool.or_eq_true, decide_eq_true_eq]
  exact after_cutoff_iff latest span s.time

omit [Scalar α] in
private theorem retains_mono {span earlier later : Duration} (s : Sample α) (ordered : earlier ≤ later)
    (stays : retains span later s = true) : retains span earlier s = true := by
  rw [retains_iff] at stays ⊢
  exact Nat.lt_of_le_of_lt ordered stays

structure Views (span : Duration) (taken : List (Sample α)) (w : Window α) : Prop where
  spans : w.span = span
  sound : w.Sound
  samples : w.samples = view span taken
  newest : w.newest? = taken.getLast?
  increasing : taken.Pairwise fun a b => a.time < b.time

private theorem views_nil (span : Duration) : Views (α := α) span [] { span } where
  spans := rfl
  sound := ⟨.nil, rfl⟩
  samples := rfl
  newest := rfl
  increasing := .nil

omit [Scalar α] in
/-- The samples that stay when `s` has come in, out of all that have ever been taken. -/
private theorem view_concat (span : Duration) (taken : List (Sample α)) (s : Sample α)
    (later : ∀ last, taken.getLast? = some last → last.time < s.time) :
    view span (taken ++ [s]) = (view span taken ++ [s]).filter (retains span s.time) := by
  have newest : (taken ++ [s]).getLast? = some s := List.getLast?_concat
  rw [view, newest]
  simp only [Option.all_some]
  rw [List.filter_append, List.filter_append, view, List.filter_filter]
  congr 1
  apply List.filter_congr
  intro a _
  -- What has expired before `s` came has also expired for `s`, which is later.
  cases last : taken.getLast? with
  | none => simp
  | some b =>
    cases stays : retains span s.time a with
    | false => simp
    | true =>
      rw [Option.all_some, Bool.true_and]
      exact (retains_mono a (Nat.le_of_lt (later b last)) stays).symm

omit [Scalar α] in
/-- Dropping the expired samples from the front leaves those that are retained. -/
theorem drop_expired (w : Window α) (latest : Duration)
    (increasing : w.samples.Pairwise fun a b => a.time < b.time) :
    w.samples.drop (w.expired latest) = w.samples.filter (retains w.span latest) := by
  rw [expired_eq]
  split
  next reached =>
    have lost : w.samples.Pairwise fun a b => decide (b.time ≤ latest - w.span) = true →
        decide (a.time ≤ latest - w.span) = true := by
      apply before_lost increasing fun u => u ≤ latest - w.span
      intro t u before early
      exact decide_eq_true (Nat.le_trans (Nat.le_of_lt before) (of_decide_eq_true early))
    rw [drop_takeWhile_eq_filter lost]
    apply List.filter_congr
    intro a _
    have late : ¬ latest < w.span := Nat.not_lt_of_le reached
    rw [retains, decide_eq_false late, Bool.false_or, ← decide_not]
    exact decide_eq_decide.mpr Nat.not_le
  next early =>
    rw [List.drop_zero]
    apply (List.filter_eq_self.mpr _).symm
    intro a _
    have early : latest < w.span := Nat.lt_of_not_le early
    simp [retains, early]

omit [Scalar α] in
theorem increasing_concat {samples : List (Sample α)} {s : Sample α}
    (increasing : samples.Pairwise fun a b => a.time < b.time) (later : ∀ a ∈ samples, a.time < s.time) :
    (samples ++ [s]).Pairwise fun a b => a.time < b.time := by
  refine List.pairwise_append.mpr ⟨increasing, List.pairwise_singleton _ _, ?_⟩
  intro a member b last
  rw [List.mem_singleton.mp last]
  exact later a member

/-- What an accepted sample does to the window, and how many samples it is told have left. -/
theorem push_ok {w next : Window α} {s : Sample α} {n : Nat} (pushed : w.push s = .ok (next, n)) :
    n = (w.extend s).expired s.time ∧ next = (w.extend s).dropOldest n := by
  rw [push] at pushed
  split at pushed
  · contradiction
  · cases pushed
    exact ⟨rfl, rfl⟩

private theorem push_ok_iff (w : Window α) (taken : List (Sample α)) (s : Sample α)
    (newest : w.newest? = taken.getLast?) :
    (∃ result, w.push s = .ok result) ↔ Sample.canFollow taken s = true := by
  rw [Sample.canFollow_iff, ← newest, ← w.anomaly?_eq_none_iff s, push]
  cases w.anomaly? s <;> simp

namespace Views
variable {span : Duration} {taken : List (Sample α)} {w : Window α}

private theorem push (views : Views span taken w) (positive : 0 < span) {s : Sample α} {next : Window α}
    {n : Nat} (pushed : w.push s = .ok (next, n)) : Views span (taken ++ [s]) next := by
  have entered := w.push_entered next s n views.sound (by rw [views.spans]; exact positive) pushed
  have follows := (w.push_ok_iff taken s views.newest).mp ⟨_, pushed⟩
  have later := ((Sample.canFollow_iff taken s).mp follows).2
  obtain ⟨count, left⟩ := push_ok pushed
  have longer : (w.extend s).samples.Pairwise fun a b => a.time < b.time := by
    rw [samples_extend]
    exact increasing_concat views.sound.increasing entered.later
  have older := lt_of_last views.increasing s.time later
  refine ⟨entered.span.trans views.spans, entered.sound, ?_, ?_, increasing_concat views.increasing older⟩
  · have spans : (w.extend s).span = span := views.spans
    rw [left, samples_dropOldest, count, drop_expired _ _ longer, spans, samples_extend,
      views.samples, view_concat span taken s later]
  · rw [newest?_eq, entered.samples, List.getLast?_drop, List.getLast?_concat, List.getLast?_concat,
      if_neg]
    have := entered.bound
    rw [List.length_append, List.length_singleton]
    omega

/-- Whatever is done to a window, it is the view of what was accepted since it was last cleared. -/
theorem edited (positive : 0 < span) (edits : List (Edit α)) :
    Views span (Sample.accepted (Edit.sinceClear edits)) (edits.foldl edit { span }) := by
  induction edits using List.reverseRecOn with
  | nil => exact views_nil span
  | append_singleton edits e ih =>
    rw [List.foldl_concat]
    cases e with
    | clear =>
      rw [Edit.sinceClear_clear, edit, clear, ih.spans]
      exact views_nil span
    | push s =>
      rw [Edit.sinceClear_push, Sample.accepted_concat]
      have judged := push_ok_iff _ _ s ih.newest
      rw [edit]
      cases pushed : (edits.foldl edit { span }).push s with
      | error e =>
        rw [if_neg (by rw [← judged, pushed]; rintro ⟨result, impossible⟩; contradiction)]
        exact ih
      | ok result =>
        rw [if_pos (judged.mp ⟨result, pushed⟩)]
        exact ih.push positive pushed

end Views

/-- What a window has to do with the samples taken, and with the next one pushed. -/
structure Reflects (span : Duration) (taken : List (Sample α)) (w : Window α) : Prop where
  samples : w.samples = view span taken
  increasing : w.samples.Pairwise fun a b => a.time < b.time
  rates_length : w.rates.length = w.samples.length - 1
  rates : ∀ i a b, w.samples[i]? = some a → w.samples[i + 1]? = some b →
    w.rates[i]? = some ((b.reading - a.reading) / Duration.secondsBetween a.time b.time)
  /-- A sample is refused without a trace, or taken in; then `n` is the number of those that leave. -/
  pushes : ∀ s,
    (∃ e, w.push s = .error e ∧ Sample.canFollow taken s = false ∧ w.edit (.push s) = w) ∨
    ∃ next n left, w.push s = .ok (next, n) ∧ Sample.canFollow taken s = true ∧
      w.edit (.push s) = next ∧ w.samples ++ [s] = left ++ next.samples ∧ n = left.length
  indexOf?_iff : ∀ t i, w.indexOf? t = some i ↔ ∃ s, w.samples[i]? = some s ∧ s.time = t
  search?_eq : ∀ t, w.search? t = w.indexOf? t
  lowerBound_eq : ∀ t, w.lowerBound t = (w.samples.filter fun s => s.time < t).length

private theorem Views.pushes {span : Duration} {taken : List (Sample α)} {w : Window α}
    (views : Views span taken w) (positive : 0 < span) (s : Sample α) :
    (∃ e, w.push s = .error e ∧ Sample.canFollow taken s = false ∧ w.edit (.push s) = w) ∨
      ∃ next n left, w.push s = .ok (next, n) ∧ Sample.canFollow taken s = true ∧
        w.edit (.push s) = next ∧ w.samples ++ [s] = left ++ next.samples ∧ n = left.length := by
  have judged := push_ok_iff w taken s views.newest
  rw [edit]
  cases pushed : w.push s with
  | error e =>
    left
    refine ⟨e, rfl, ?_, rfl⟩
    rw [pushed] at judged
    simpa using judged
  | ok result =>
    right
    obtain ⟨next, n⟩ := result
    have entered := w.push_entered next s n views.sound (by rw [views.spans]; exact positive) pushed
    refine ⟨next, n, (w.samples ++ [s]).take n, rfl, judged.mp ⟨_, pushed⟩, rfl, ?_, ?_⟩
    · rw [entered.samples, List.take_append_drop]
    · have := entered.bound
      rw [List.length_take, List.length_append]
      omega

/-- However samples were pushed, refused and dropped, and the window cleared, it holds exactly those
accepted since it was last cleared that are less than a span older than the newest one, with the rates
of neighbours, and the next sample is judged by that history alone. -/
theorem window_is_view_of_history (span : Duration) (positive : 0 < span) (edits : List (Edit α)) :
    Reflects span (Sample.accepted (Edit.sinceClear edits)) (edits.foldl edit { span }) := by
  have views := Views.edited positive edits
  have sound := views.sound
  exact {
    samples := views.samples
    increasing := sound.increasing
    rates_length := by rw [sound.rates_length, size_eq]
    rates := fun i a b first second => (sound.rate_iff i _).mpr ⟨a, b, first, second, rfl⟩
    pushes := views.pushes positive
    indexOf?_iff := sound.indexOf?_iff
    search?_eq := sound.search?_eq
    lowerBound_eq := sound.lowerBound_eq }

/-- After a clearing, one sample comes twice and one has no reading. When the last sample comes, one is
exactly a span old. -/
def Edit.boundaries : List (Edit Float) :=
  [.push (.plain 7 1.0), .clear, .push (.plain 0 1.0), .push (.plain 1 2.0), .push (.plain 1 3.0),
    .push (.plain 2 (0.0 / 0.0)), .push (.plain 2 2.0), .push (.plain 4 5.0)]

theorem window_is_view_of_history_boundaries :
    0 < 3 ∧
      ((Sample.accepted (Edit.sinceClear Edit.boundaries)).map Sample.time = [0, 1, 2, 4] ∧
        (Edit.boundaries.foldl edit { span := 3 }).samples.map Sample.time = [2, 4]) ∧
      Reflects 3 (Sample.accepted (Edit.sinceClear Edit.boundaries))
        (Edit.boundaries.foldl edit { span := 3 }) :=
  ⟨by decide, by decide, window_is_view_of_history 3 (by decide) Edit.boundaries⟩

end Window
end Calorimetry
