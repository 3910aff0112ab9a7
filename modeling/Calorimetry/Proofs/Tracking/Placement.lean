import Calorimetry.Proofs.Session
import Calorimetry.Proofs.Tracking

/-! Where the tracked pulses lie in the window. Times are what a pulse is known by, positions are
what its rules are about, and positions shift with every sample that leaves. The rules are therefore
stated on positions that are looked up anew in each window. -/

namespace Calorimetry
variable {α : Type} [Scalar α]

/-- The pulse begins with sample `i` and ends with sample `j`; the rate after the first of them and
the rate before the last are above the threshold, and the latter is the rate of the pulse. -/
structure Pulse.Spans (threshold : α) (w : Window α) (p : Pulse α) (i j : Nat) : Prop where
  start : w.indexOf? p.start = some i
  stop : w.indexOf? p.stop = some j
  ordered : i < j
  first_hot : ∃ rate, w.rates[i]? = some rate ∧ Scalar.lt threshold rate = true
  last_rate : w.rates[j - 1]? = some p.rate
  last_hot : Scalar.lt threshold p.rate = true

theorem Pulse.Spans.entered {threshold : α} {w w' : Window α} {s : Sample α} {n i j : Nat}
    {p : Pulse α} (spans : p.Spans threshold w i j) (entered : w.Entered w' s n) (sound : w.Sound)
    (stays : n ≤ i) : p.Spans threshold w' (i - n) (j - n) := by
  have ordered := spans.ordered
  obtain ⟨rate, present, hot⟩ := spans.first_hot
  refine ⟨entered.indexOf?_old spans.start stays, entered.indexOf?_old spans.stop (by omega),
    by omega, ⟨rate, entered.rate_old sound present stays, hot⟩, ?_, spans.last_hot⟩
  rw [show j - n - 1 = j - 1 - n by omega]
  exact entered.rate_old sound spans.last_rate (by omega)

namespace Pulses

-- A frozen pulse is farther from the newest sample than the next pulse may begin after it: without
-- this the distance between two pulses would not be kept when the second one begins.
/-- Pulses that lie apart. The end of the growing one is within reach of the newest sample, give or
take `slack` samples, and the end of a frozen one is out of reach. -/
structure Placed (c : MeterSettings α) (w : Window α) (slack : Nat) (ps : Pulses α) : Prop where
  spans : ∀ p ∈ ps, ∃ i j, p.Spans c.threshold w i j
  growing_near : ∀ p ∈ ps, p.phase = .growing → ∀ j, w.indexOf? p.stop = some j →
    w.size ≤ j + c.reach + 1 + slack
  frozen_far : ∀ p ∈ ps, p.phase = .frozen → ∀ j, w.indexOf? p.stop = some j →
    j + c.reach + 1 < w.size
  frozen_long : ∀ p ∈ ps, p.phase = .frozen → c.minimum ≤ p.length
  apart : ps.Pairwise fun newer older => ∀ i j, w.indexOf? newer.start = some i →
    w.indexOf? older.stop = some j → j + c.reach ≤ i

variable {c : MeterSettings α} {w w' : Window α}

theorem placed_nil (slack : Nat) : Placed c w slack [] where
  spans _ member := absurd member List.not_mem_nil
  growing_near _ member := absurd member List.not_mem_nil
  frozen_far _ member := absurd member List.not_mem_nil
  frozen_long _ member := absurd member List.not_mem_nil
  apart := .nil

private theorem Placed.cons {slack before : Nat} {p : Pulse α} {older : Pulses α} {i j : Nat}
    (placed : older.Placed c w before) (frozen : ∀ q ∈ older, q.phase = .frozen)
    (spans : p.Spans c.threshold w i j)
    (near : p.phase = .growing → w.size ≤ j + c.reach + 1 + slack)
    (far : p.phase = .frozen → j + c.reach + 1 < w.size)
    (long : p.phase = .frozen → c.minimum ≤ p.length)
    (apart : ∀ q ∈ older, ∀ j, w.indexOf? q.stop = some j → j + c.reach ≤ i) :
    Placed c w slack (p :: older) where
  spans q member := by
    rcases List.mem_cons.mp member with rfl | behind
    · exact ⟨i, j, spans⟩
    · exact placed.spans q behind
  growing_near q member growing k found := by
    rcases List.mem_cons.mp member with rfl | behind
    · cases Option.some.inj (spans.stop.symm.trans found)
      exact near growing
    · rw [frozen q behind] at growing
      contradiction
  frozen_far q member rests k found := by
    rcases List.mem_cons.mp member with rfl | behind
    · cases Option.some.inj (spans.stop.symm.trans found)
      exact far rests
    · exact placed.frozen_far q behind rests k found
  frozen_long q member rests := by
    rcases List.mem_cons.mp member with rfl | behind
    · exact long rests
    · exact placed.frozen_long q behind rests
  apart := by
    refine List.pairwise_cons.mpr ⟨?_, placed.apart⟩
    intro q behind k l foundStart foundStop
    cases Option.some.inj (spans.start.symm.trans foundStart)
    exact apart q behind l foundStop

/-- Once a sample has come in, the growing pulse is one sample farther from the newest. -/
theorem Placed.entered {ps kept : Pulses α} {s : Sample α} {n : Nat} (placed : ps.Placed c w 0)
    (entered : w.Entered w' s n) (sound : w.Sound) (sub : kept.Sublist ps)
    (stays : ∀ p ∈ kept, ∀ i, w.indexOf? p.start = some i → n ≤ i) : kept.Placed c w' 1 := by
  have size := entered.size
  have moved (p : Pulse α) (member : p ∈ kept) : ∃ i j, p.Spans c.threshold w i j ∧ n ≤ i ∧ i < j ∧
      w'.indexOf? p.start = some (i - n) ∧ w'.indexOf? p.stop = some (j - n) := by
    obtain ⟨i, j, spans⟩ := placed.spans p (sub.subset member)
    have after := spans.entered entered sound (stays p member i spans.start)
    exact ⟨i, j, spans, stays p member i spans.start, spans.ordered, after.start, after.stop⟩
  refine ⟨?_, ?_, ?_, ?_, ?_⟩
  · intro p member
    obtain ⟨i, j, spans, later, _⟩ := moved p member
    exact ⟨i - n, j - n, spans.entered entered sound later⟩
  · intro p member growing k found
    obtain ⟨i, j, spans, later, ordered, _, stop⟩ := moved p member
    have near := placed.growing_near p (sub.subset member) growing j spans.stop
    have same := Option.some.inj (stop.symm.trans found)
    omega
  · intro p member frozen k found
    obtain ⟨i, j, spans, later, ordered, _, stop⟩ := moved p member
    have far := placed.frozen_far p (sub.subset member) frozen j spans.stop
    have same := Option.some.inj (stop.symm.trans found)
    omega
  · intro p member
    exact placed.frozen_long p (sub.subset member)
  · apply (placed.apart.sublist sub).imp_of_mem
    intro newer older first second apart k l foundStart foundStop
    obtain ⟨i, _, spansNew, laterNew, _, start, _⟩ := moved newer first
    obtain ⟨_, j, spansOld, laterOld, ordered, _, stop⟩ := moved older second
    have distance := apart i j spansNew.start spansOld.stop
    have sameStart := Option.some.inj (start.symm.trans foundStart)
    have sameStop := Option.some.inj (stop.symm.trans foundStop)
    omega

private theorem Placed.tail {slack : Nat} {ps : Pulses α} (placed : ps.Placed c w slack) :
    Placed c w slack ps.tail where
  spans p member := placed.spans p (List.mem_of_mem_tail member)
  growing_near p member := placed.growing_near p (List.mem_of_mem_tail member)
  frozen_far p member := placed.frozen_far p (List.mem_of_mem_tail member)
  frozen_long p member := placed.frozen_long p (List.mem_of_mem_tail member)
  apart := placed.apart.tail

/-- Fits and powers have nothing to do with where a pulse lies. -/
theorem Placed.annotated {slack : Nat} {ps : Pulses α} (placed : ps.Placed c w slack) (t : Table α) :
    Placed c w slack (ps.map (·.annotate t)) := by
  refine ⟨?_, ?_, ?_, ?_, ?_⟩
  · intro q member
    obtain ⟨p, present, rfl⟩ := List.mem_map.mp member
    obtain ⟨i, j, spans⟩ := placed.spans p present
    exact ⟨i, j, ⟨spans.start, spans.stop, spans.ordered, spans.first_hot, spans.last_rate,
      spans.last_hot⟩⟩
  · intro q member
    obtain ⟨p, present, rfl⟩ := List.mem_map.mp member
    exact placed.growing_near p present
  · intro q member
    obtain ⟨p, present, rfl⟩ := List.mem_map.mp member
    exact placed.frozen_far p present
  · intro q member
    obtain ⟨p, present, rfl⟩ := List.mem_map.mp member
    exact placed.frozen_long p present
  · rw [List.pairwise_map]
    exact placed.apart

end Pulses

namespace Meter
variable {m : Meter α} {w w' : Window α} {a b : Sample α}

theorem keptPulses_stay {s : Sample α} {n : Nat} (entered : m.window.Entered w' s n)
    (sound : m.window.Sound) :
    ∀ p ∈ m.keptPulses w' n, ∀ i, m.window.indexOf? p.start = some i → n ≤ i := by
  intro p member i found
  obtain ⟨oldest, there, stays⟩ := entered.oldest_le_iff sound found
  rw [keptPulses] at member
  split at member
  · omega
  · rw [Pulses.dropExpired, there] at member
    exact stays.mp (of_decide_eq_true (List.mem_filter.mp member).2)

/-- The last two samples of a window. -/
structure Newest (w : Window α) (a b : Sample α) : Prop where
  two : 2 ≤ w.size
  first : w.samples[w.size - 2]? = some a
  second : w.samples[w.size - 1]? = some b

theorem begun_spans (sound : w.Sound) (newest : Newest w a b) :
    ∀ p ∈ m.begun w a b,
      p.phase = .growing ∧ p.Spans m.settings.threshold w (w.size - 2) (w.size - 1) := by
  intro p member
  rw [begun] at member
  split at member
  next hot =>
    rw [List.mem_singleton.mp member]
    have two := newest.two
    have rate : w.rates[w.size - 2]? = some (Window.rateBetween a b) := by
      apply (sound.rate_iff _ _).mpr
      refine ⟨a, b, newest.first, ?_, rfl⟩
      rw [show w.size - 2 + 1 = w.size - 1 by omega]
      exact newest.second
    exact ⟨rfl, sound.indexOf?_of_sample newest.first, sound.indexOf?_of_sample newest.second,
      by omega, ⟨_, rate, hot⟩, rate, hot⟩
  · exact absurd member List.not_mem_nil

theorem grown_spans (sound : w.Sound) (newest : Newest w a b) {p : Pulse α} {i j : Nat}
    (spans : p.Spans m.settings.threshold w i j) :
    ∃ k, j ≤ k ∧ (m.grown w a b p).Spans m.settings.threshold w i k := by
  have bound := w.indexOf?_lt _ _ spans.stop
  rw [grown]
  split
  next hot =>
    have ordered := spans.ordered
    have rate : w.rates[w.size - 1 - 1]? = some (Window.rateBetween a b) := by
      apply (sound.rate_iff _ _).mpr
      refine ⟨a, b, newest.first, ?_, rfl⟩
      rw [show w.size - 1 - 1 + 1 = w.size - 1 by omega]
      exact newest.second
    exact ⟨w.size - 1, by omega, spans.start, sound.indexOf?_of_sample newest.second, by omega,
      spans.first_hot, rate, hot⟩
  · exact ⟨j, Nat.le_refl j, spans.start, spans.stop, spans.ordered, spans.first_hot,
      spans.last_rate, spans.last_hot⟩

private theorem begun_placed {slack : Nat} {older : Pulses α} (sound : w.Sound) (newest : Newest w a b)
    (placed : older.Placed m.settings w slack) (frozen : ∀ q ∈ older, q.phase = .frozen) :
    Pulses.Placed m.settings w 0 (m.begun w a b ++ older) := by
  have rested : older.Placed m.settings w 0 := by
    refine { placed with growing_near := ?_ }
    intro q member growing
    rw [frozen q member] at growing
    contradiction
  have fresh := begun_spans (m := m) sound newest
  have two := newest.two
  rw [begun] at fresh ⊢
  split
  next hot =>
    rw [if_pos hot] at fresh
    obtain ⟨growing, spans⟩ := fresh _ (List.mem_singleton_self _)
    refine rested.cons frozen spans (fun _ => by omega) ?_ ?_ ?_
    · intro rests
      rw [growing] at rests
      contradiction
    · intro rests
      rw [growing] at rests
      contradiction
    · intro q member j found
      have far := rested.frozen_far q member (frozen q member) j found
      omega
  · exact rested

private theorem retired_placed {slack : Nat} {p : Pulse α} {older : Pulses α} (sound : w.Sound)
    (frozen : ∀ q ∈ older, q.phase = .frozen)
    (far : m.settings.reach < (w.countAfter? p.stop).getD 0)
    (placed : Pulses.Placed m.settings w slack (p :: older)) :
    Pulses.Placed m.settings w slack (m.retired w p ++ older) := by
  have behind := placed.tail
  rw [retired]
  split
  · exact behind
  next long =>
    obtain ⟨i, j, spans⟩ := placed.spans p List.mem_cons_self
    rw [sound.countAfter?_of_indexOf? spans.stop, Option.getD_some] at far
    have ended : (m.fitPulse w { p with phase := .frozen }).Spans m.settings.threshold w i j :=
      ⟨spans.start, spans.stop, spans.ordered, spans.first_hot, spans.last_rate, spans.last_hot⟩
    refine behind.cons frozen ended ?_ (fun _ => by omega) (fun _ => Nat.le_of_not_lt long) ?_
    · intro grows
      contradiction
    · intro q member k found
      exact (List.pairwise_cons.mp placed.apart).1 q member i k spans.start found

theorem Follows.placed {kept next : Pulses α} (follows : m.Follows w a b kept next)
    (sound : w.Sound) (newest : Newest w a b) (placed : kept.Placed m.settings w 1) :
    next.Placed m.settings w 0 := by
  cases follows with
  | rest _ frozen => exact begun_placed sound newest placed frozen
  | goOn p older growing frozen near =>
    obtain ⟨i, j, spans⟩ := placed.spans p List.mem_cons_self
    obtain ⟨k, farther, grown⟩ := grown_spans (m := m) sound newest spans
    rw [sound.countAfter?_of_indexOf? spans.stop, Option.getD_some] at near
    refine placed.tail.cons frozen grown (fun _ => by omega) ?_ ?_ ?_
    · intro rests
      rw [grown_phase, growing] at rests
      contradiction
    · intro rests
      rw [grown_phase, growing] at rests
      contradiction
    · intro q member l found
      exact (List.pairwise_cons.mp placed.apart).1 q member i l spans.start found
  | finish p older growing frozen far =>
    exact begun_placed sound newest (retired_placed sound frozen far placed)
      (m.retired_frozen w p frozen)

end Meter
end Calorimetry
