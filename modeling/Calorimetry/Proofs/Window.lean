import Calorimetry.Window

/-! Positions in the trailing window. A window is sound when its times increase strictly and its
rates are those between neighbours. Taking in a sample keeps it sound, and what stood at position
`i` stands at position `i - n` once `n` samples have left. -/

namespace Calorimetry.Window
variable {α : Type} [Scalar α]

/-- Times increase strictly, and there is the rate of each two neighbours. -/
structure Sound (w : Window α) : Prop where
  increasing : w.samples.Pairwise fun a b => a.time < b.time
  aligned : w.rates = List.zipWith rateBetween w.samples w.samples.tail

omit [Scalar α] in
theorem size_eq (w : Window α) : w.size = w.samples.length := (Queue.length_toList _).symm

omit [Scalar α] in
/-- Whatever the window holds, a position that was found is that of a sample with the time. -/
theorem sample_of_indexOf? (w : Window α) (t : Duration) (i : Nat) (found : w.indexOf? t = some i) :
    ∃ s, w.samples[i]? = some s ∧ s.time = t := by
  obtain ⟨bound, stamped, _⟩ := List.findIdx?_eq_some_iff_getElem.mp found
  exact ⟨_, List.getElem?_eq_getElem bound, of_decide_eq_true stamped⟩

omit [Scalar α] in
theorem indexOf?_lt (w : Window α) (t : Duration) (i : Nat) (found : w.indexOf? t = some i) :
    i < w.size := by
  obtain ⟨s, present, _⟩ := w.sample_of_indexOf? t i found
  rw [size_eq]
  exact (List.getElem?_eq_some_iff.mp present).1

namespace Sound
variable {w : Window α}

theorem time_lt (sound : w.Sound) {i j : Nat} {a b : Sample α} (first : w.samples[i]? = some a)
    (second : w.samples[j]? = some b) (before : i < j) : a.time < b.time := by
  obtain ⟨boundA, rfl⟩ := List.getElem?_eq_some_iff.mp first
  obtain ⟨boundB, rfl⟩ := List.getElem?_eq_some_iff.mp second
  exact List.pairwise_iff_getElem.mp sound.increasing i j boundA boundB before

theorem time_le_iff (sound : w.Sound) {i j : Nat} {a b : Sample α} (first : w.samples[i]? = some a)
    (second : w.samples[j]? = some b) : a.time ≤ b.time ↔ i ≤ j := by
  constructor
  · intro ordered
    apply Nat.le_of_not_lt
    intro after
    exact Nat.not_le_of_lt (sound.time_lt second first after) ordered
  · intro ordered
    rcases Nat.lt_or_eq_of_le ordered with before | rfl
    · exact Nat.le_of_lt (sound.time_lt first second before)
    · cases Option.some.inj (first.symm.trans second)
      exact Nat.le_refl _

theorem indexOf?_of_sample (sound : w.Sound) {i : Nat} {s : Sample α}
    (present : w.samples[i]? = some s) : w.indexOf? s.time = some i := by
  obtain ⟨bound, rfl⟩ := List.getElem?_eq_some_iff.mp present
  apply List.findIdx?_eq_some_iff_getElem.mpr
  refine ⟨bound, decide_eq_true rfl, ?_⟩
  intro j before
  have earlier := List.pairwise_iff_getElem.mp sound.increasing j i (by omega) bound before
  simp only [decide_eq_true_eq]
  exact Nat.ne_of_lt earlier

theorem rates_length (sound : w.Sound) : w.rates.length = w.size - 1 := by
  rw [sound.aligned, size_eq, List.length_zipWith, List.length_tail]
  omega

theorem rate_iff (sound : w.Sound) (i : Nat) (rate : α) :
    w.rates[i]? = some rate ↔
      ∃ a b, w.samples[i]? = some a ∧ w.samples[i + 1]? = some b ∧ rate = rateBetween a b := by
  rw [sound.aligned, List.getElem?_zipWith_eq_some]
  simp only [List.getElem?_tail]
  constructor
  · rintro ⟨a, b, first, second, equal⟩
    exact ⟨a, b, first, second, equal.symm⟩
  · rintro ⟨a, b, first, second, equal⟩
    exact ⟨a, b, first, second, equal.symm⟩

/-- Looking from the new end finds the same sample as looking from the old end. -/
theorem countAfter?_of_indexOf? (sound : w.Sound) {t : Duration} {i : Nat}
    (found : w.indexOf? t = some i) : w.countAfter? t = some (w.size - 1 - i) := by
  obtain ⟨s, present, rfl⟩ := w.sample_of_indexOf? t i found
  obtain ⟨bound, rfl⟩ := List.getElem?_eq_some_iff.mp present
  rw [countAfter?_eq, size_eq]
  apply List.findIdx?_eq_some_iff_getElem.mpr
  refine ⟨by simp only [List.length_reverse]; omega, ?_, ?_⟩
  · simp only [List.getElem_reverse, decide_eq_true_eq]
    congr 2
    omega
  · intro j after
    have later := List.pairwise_iff_getElem.mp sound.increasing i (w.samples.length - 1 - j)
      bound (by omega) (by omega)
    simp only [List.getElem_reverse, decide_eq_true_eq]
    exact Nat.ne_of_gt later

private theorem slice_reverse {β : Type} (xs : List β) (i k : Nat) (ordered : i ≤ k)
    (bound : k ≤ xs.length) :
    ((xs.reverse.take (xs.length - i)).drop (xs.length - k)).reverse = xs.extract i k := by
  rw [List.take_reverse, List.drop_reverse, List.reverse_reverse, List.length_drop,
    List.extract_eq_take_drop, show xs.length - (xs.length - i) = i by omega,
    show xs.length - i - (xs.length - k) = k - i by omega]

/-- What lies between two times is what lies between their positions. -/
theorem between?_eq (sound : w.Sound) {start stop : Duration} {i j : Nat}
    (foundStart : w.indexOf? start = some i) (foundStop : w.indexOf? stop = some j)
    (ordered : i ≤ j) :
    w.between? start stop = some (w.samples.extract i (j + 1), w.rates.extract i j) := by
  have bound := w.indexOf?_lt _ _ foundStop
  have size := w.size_eq
  have count := sound.rates_length
  have samples := slice_reverse w.samples i (j + 1) (by omega) (by omega)
  have rates := slice_reverse w.rates i j ordered (by omega)
  rw [w.between?_eq_some (sound.countAfter?_of_indexOf? foundStart)
    (sound.countAfter?_of_indexOf? foundStop)]
  rw [← samples, ← rates, count, show w.size - 1 - i + 1 = w.samples.length - i by omega,
    show w.samples.length - (j + 1) = w.size - 1 - j by omega]

/-- A rate is the latest one if there are two samples, and then it is that of the last two. -/
theorem latest_cases (sound : w.Sound) :
    (w.size ≤ 1 ∧ w.latestRate? = none) ∨
      (2 ≤ w.size ∧ ∃ a b, w.lastTwo? = some (a, b) ∧ w.latestRate? = some (rateBetween a b) ∧
        w.samples[w.size - 2]? = some a ∧ w.samples[w.size - 1]? = some b) := by
  have count := sound.rates_length
  have size := w.size_eq
  rw [latestRate?_eq, List.getLast?_eq_getElem?, count]
  rcases Nat.lt_or_ge w.size 2 with few | enough
  · left
    refine ⟨by omega, ?_⟩
    apply List.getElem?_eq_none
    omega
  · right
    have before : w.size - 2 + 1 = w.size - 1 := by omega
    have boundA : w.size - 2 < w.samples.length := by omega
    have boundB : w.size - 1 < w.samples.length := by omega
    have first := List.getElem?_eq_getElem boundA
    have second := List.getElem?_eq_getElem boundB
    refine ⟨enough, _, _, ?_, ?_, first, second⟩
    · apply (w.lastTwo?_eq_some _ _).mpr
      refine ⟨w.samples.take (w.size - 2), ?_⟩
      have cut := List.take_append_drop (w.size - 2) w.samples
      rw [List.drop_eq_getElem_cons boundA, List.drop_eq_getElem_cons (by omega),
        List.drop_eq_nil_of_le (by omega)] at cut
      simpa only [before] using cut.symm
    · apply (sound.rate_iff _ _).mpr
      refine ⟨_, _, first, ?_, rfl⟩
      rw [show w.size - 1 - 1 + 1 = w.size - 1 by omega]
      exact second

end Sound

/-! ## Taking in a sample -/

omit [Scalar α] in
private theorem expired_le (w : Window α) (older : List (Sample α)) (s : Sample α)
    (recorded : w.samples = older ++ [s]) (positive : 0 < w.span) :
    w.expired s.time ≤ older.length := by
  rw [expired_eq]
  split
  · next reached =>
    rw [recorded, List.takeWhile_append]
    have stays : ¬ s.time ≤ s.time - w.span := by
      have reached : w.span ≤ s.time := reached
      apply Nat.not_le_of_lt
      exact Nat.sub_lt (Nat.lt_of_lt_of_le positive reached) positive
    split
    · simp [stays]
    · exact (List.takeWhile_prefix _).length_le
  · exact Nat.zero_le _

/-- A sample is taken in exactly if it is finite and later than the newest one. -/
theorem anomaly?_eq_none_iff (w : Window α) (s : Sample α) :
    w.anomaly? s = none ↔
      Scalar.isFinite s.reading = true ∧ ∀ last, w.newest? = some last → last.time < s.time := by
  rw [anomaly?]
  cases finite : Scalar.isFinite s.reading with
  | false => simp
  | true =>
    cases newest : w.newest? with
    | none => simp
    | some last =>
      simp only [Bool.not_true, Bool.false_eq_true, if_false, true_and, Option.some.injEq, forall_eq']
      rcases Nat.lt_trichotomy s.time last.time with before | same | after
      · simp [Nat.ne_of_lt before, before, Nat.not_lt_of_gt before]
      · simp [same]
      · simp [Nat.ne_of_gt after, Nat.not_lt_of_gt after, after]

omit [Scalar α] in
/-- Of samples in increasing order the last one is the latest. -/
theorem lt_of_last {samples : List (Sample α)} (increasing : samples.Pairwise fun a b => a.time < b.time)
    (t : Duration) (later : ∀ last, samples.getLast? = some last → last.time < t) :
    ∀ a ∈ samples, a.time < t := by
  intro a member
  rcases List.eq_nil_or_concat samples with none | ⟨older, last, ends⟩
  · exact absurd member (by simp [none])
  · rw [List.concat_eq_append] at ends
    subst ends
    have newest := later last List.getLast?_concat
    rcases List.mem_append.mp member with before | final
    · have ordered := (List.pairwise_append.mp increasing).2.2 a before last (List.mem_singleton_self _)
      exact Nat.lt_trans ordered newest
    · rw [List.mem_singleton.mp final]
      exact newest

private theorem Sound.lt_of_newest (w : Window α) (sound : w.Sound) (t : Duration)
    (later : ∀ last, w.newest? = some last → last.time < t) : ∀ x ∈ w.samples, x.time < t := by
  rw [newest?_eq] at later
  exact lt_of_last sound.increasing t later

omit [Scalar α] in
theorem neighbours_concat {β : Type} (f : Sample α → Sample α → β) (xs : List (Sample α))
    (s : Sample α) :
    List.zipWith f (xs ++ [s]) (xs ++ [s]).tail =
      List.zipWith f xs xs.tail ++ (xs.getLast?.map fun last => f last s).toList := by
  induction xs with
  | nil => rfl
  | cons a rest ih =>
    cases rest with
    | nil => rfl
    | cons b rest => simpa [List.getLast?_cons_cons] using ih

theorem rates_extend (w : Window α) (s : Sample α) :
    (w.extend s).rates = w.rates ++ (w.newest?.map fun last => rateBetween last s).toList := by
  rw [rates, extend]
  cases w.newest? with
  | none => exact (List.append_nil _).symm
  | some last => exact Queue.toList_push _ _

private theorem extend_aligned (w : Window α) (sound : w.Sound) (s : Sample α) :
    (w.extend s).rates =
      List.zipWith rateBetween (w.extend s).samples (w.extend s).samples.tail := by
  rw [samples_extend, neighbours_concat, ← sound.aligned, ← newest?_eq, rates_extend]

/-- `w'` is `w` with `s` taken in and `n` old samples left out. -/
structure Entered (w w' : Window α) (s : Sample α) (n : Nat) : Prop where
  finite : Scalar.isFinite s.reading = true
  later : ∀ x ∈ w.samples, x.time < s.time
  span : w'.span = w.span
  samples : w'.samples = (w.samples ++ [s]).drop n
  bound : n ≤ w.samples.length
  sound : w'.Sound

theorem push_entered (w w' : Window α) (s : Sample α) (n : Nat) (sound : w.Sound)
    (positive : 0 < w.span) (pushed : w.push s = .ok (w', n)) : w.Entered w' s n := by
  rw [push] at pushed
  split at pushed
  · contradiction
  next accepted =>
    cases pushed
    obtain ⟨finite, newest⟩ := (w.anomaly?_eq_none_iff s).mp accepted
    have later := Sound.lt_of_newest w sound s.time newest
    refine ⟨finite, later, rfl, ?_, ?_, ?_, ?_⟩
    · rw [samples_dropOldest, samples_extend]
    · exact expired_le _ _ s (samples_extend w s) positive
    · rw [samples_dropOldest, samples_extend]
      apply List.Pairwise.sublist (List.drop_sublist _ _)
      apply List.pairwise_append.mpr
      refine ⟨sound.increasing, List.pairwise_singleton _ _, ?_⟩
      intro x member y last
      rw [List.mem_singleton.mp last]
      exact later x member
    · rw [rates_dropOldest, samples_dropOldest, extend_aligned w sound, List.drop_zipWith,
        List.drop_tail, List.tail_drop]

omit [Scalar α] in
private theorem extract_shift {β : Type} (xs ys : List β) (n i k : Nat) (stays : n ≤ i)
    (same : ∀ l, i ≤ l → l < k → ys[l - n]? = xs[l]?) :
    ys.extract (i - n) (k - n) = xs.extract i k := by
  apply List.ext_getElem?
  intro l
  simp only [List.extract_eq_take_drop, List.getElem?_take, List.getElem?_drop]
  rcases Nat.lt_or_ge l (k - i) with inside | outside
  · rw [if_pos inside, if_pos (by omega), ← same (i + l) (by omega) (by omega)]
    congr 1
    omega
  · rw [if_neg (by omega), if_neg (by omega)]

namespace Entered
variable {w w' : Window α} {s : Sample α} {n : Nat}

theorem size (entered : w.Entered w' s n) : w'.size = w.size + 1 - n := by
  rw [size_eq, size_eq, entered.samples, List.length_drop, List.length_append, List.length_singleton]

theorem le_size (entered : w.Entered w' s n) : n ≤ w.size := by
  rw [size_eq]
  exact entered.bound

private theorem sample_old (entered : w.Entered w' s n) {i : Nat} {a : Sample α}
    (present : w.samples[i]? = some a) (stays : n ≤ i) : w'.samples[i - n]? = some a := by
  have bound := (List.getElem?_eq_some_iff.mp present).1
  rw [entered.samples, List.getElem?_drop, Nat.add_sub_cancel' stays, List.getElem?_append_left bound]
  exact present

theorem sample_new (entered : w.Entered w' s n) : w'.samples[w'.size - 1]? = some s := by
  have bound := entered.le_size
  rw [entered.size, entered.samples, List.getElem?_drop,
    show n + (w.size + 1 - n - 1) = w.samples.length by rw [← size_eq]; omega]
  exact List.getElem?_concat_length

theorem indexOf?_old (entered : w.Entered w' s n) {t : Duration} {i : Nat}
    (found : w.indexOf? t = some i) (stays : n ≤ i) : w'.indexOf? t = some (i - n) := by
  obtain ⟨a, present, rfl⟩ := w.sample_of_indexOf? t i found
  exact entered.sound.indexOf?_of_sample (entered.sample_old present stays)

theorem rate_old (entered : w.Entered w' s n) (sound : w.Sound) {i : Nat} {rate : α}
    (present : w.rates[i]? = some rate) (stays : n ≤ i) : w'.rates[i - n]? = some rate := by
  obtain ⟨a, b, first, second, equal⟩ := (sound.rate_iff i rate).mp present
  apply (entered.sound.rate_iff _ _).mpr
  refine ⟨a, b, entered.sample_old first stays, ?_, equal⟩
  rw [show i - n + 1 = i + 1 - n by omega]
  exact entered.sample_old second (by omega)

theorem samples_extract (entered : w.Entered w' s n) {i k : Nat} (stays : n ≤ i)
    (bound : k ≤ w.size) : w'.samples.extract (i - n) (k - n) = w.samples.extract i k := by
  apply extract_shift _ _ n i k stays
  intro l first last
  have inside : l < w.samples.length := by rw [← size_eq]; omega
  rw [List.getElem?_eq_getElem inside]
  exact entered.sample_old (List.getElem?_eq_getElem inside) (by omega)

theorem rates_extract (entered : w.Entered w' s n) (sound : w.Sound) {i k : Nat} (stays : n ≤ i)
    (bound : k < w.size) : w'.rates.extract (i - n) (k - n) = w.rates.extract i k := by
  apply extract_shift _ _ n i k stays
  intro l first last
  have inside : l < w.rates.length := by rw [sound.rates_length]; omega
  rw [List.getElem?_eq_getElem inside]
  exact entered.rate_old sound (List.getElem?_eq_getElem inside) (by omega)

/-- A time is that of the oldest sample or later exactly if its sample has not left. -/
theorem oldest_le_iff (entered : w.Entered w' s n) (sound : w.Sound) {t : Duration} {i : Nat}
    (found : w.indexOf? t = some i) :
    ∃ oldest, w'.oldest? = some oldest ∧ (oldest.time ≤ t ↔ n ≤ i) := by
  obtain ⟨a, present, rfl⟩ := w.sample_of_indexOf? t i found
  have bound := (List.getElem?_eq_some_iff.mp present).1
  have longer : n < (w.samples ++ [s]).length := by
    have := entered.bound
    rw [List.length_append]
    exact Nat.lt_succ_of_le this
  refine ⟨(w.samples ++ [s])[n], ?_, ?_⟩
  · rw [oldest?_eq, entered.samples, List.head?_drop, List.getElem?_eq_getElem longer]
  rcases Nat.lt_or_ge n w.samples.length with inside | outside
  · rw [List.getElem_append_left inside]
    exact sound.time_le_iff (List.getElem?_eq_getElem inside) present
  · have last : n = w.samples.length := Nat.le_antisymm entered.bound outside
    subst last
    rw [List.getElem_concat_length rfl]
    have earlier := entered.later a (List.mem_of_getElem? present)
    constructor
    · intro ordered
      exact absurd earlier (Nat.not_lt_of_le ordered)
    · omega

end Entered
end Calorimetry.Window
