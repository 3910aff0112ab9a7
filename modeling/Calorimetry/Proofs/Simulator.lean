import Calorimetry.Proofs.Acquisition
import Calorimetry.Simulator

/-! How the simulated head answers. As long as it is connected and its stream has not ended, it delivers a
sample to every read that waits long enough, one period after the sample before. -/

namespace Calorimetry.SimulatedHead
variable {α : Type} [Scalar α] {h : SimulatedHead α} {timeout : Duration}

theorem read_of_exhausted (ended : h.exhausted = true) : h.read timeout = (.ok none, h) := by
  rw [read, if_pos ended]

theorem read_of_due (more : h.exhausted = false) (due : h.untilNext ≤ timeout)
    (connected : h.bank.connected = true) : h.read timeout =
      (.ok (some (h.advance h.untilNext).deliver.1), (h.advance h.untilNext).deliver.2) := by
  rw [read, if_neg (by simp [more]), if_neg (Nat.not_lt_of_le due)]
  exact if_pos connected

/-- The head is connected, and a period has been scheduled for each sample so far. -/
structure Paced (h : SimulatedHead α) : Prop where
  connected : h.bank.connected = true
  next : h.next = h.produced * h.settings.period

private theorem Paced.deliver (paced : h.Paced) (d : Duration) : (h.advance d).deliver.2.Paced where
  connected := paced.connected
  next := by
    change h.next + h.settings.period = (h.produced + 1) * h.settings.period
    rw [paced.next, Nat.succ_mul]

/-- How many of the wanted samples there still are. -/
def available (h : SimulatedHead α) (wanted : Nat) : Nat :=
  h.settings.maxSamples.elim wanted fun n => min wanted (n - h.produced)

private theorem available_zero (h : SimulatedHead α) : h.available 0 = 0 := by
  rw [available]
  cases h.settings.maxSamples with
  | none => rfl
  | some n => exact Nat.zero_min _

theorem available_of_exhausted (ended : h.exhausted = true) (wanted : Nat) : h.available wanted = 0 := by
  rw [exhausted] at ended
  rw [available]
  cases limited : h.settings.maxSamples with
  | none => simp [limited] at ended
  | some n =>
    simp only [limited, decide_eq_true_eq] at ended
    simp [Nat.sub_eq_zero_of_le ended]

private theorem available_deliver (more : h.exhausted = false) (d : Duration) (wanted : Nat) :
    h.available (wanted + 1) = (h.advance d).deliver.2.available wanted + 1 := by
  rw [exhausted] at more
  change h.settings.maxSamples.elim (wanted + 1) (fun n => min (wanted + 1) (n - h.produced)) =
    h.settings.maxSamples.elim wanted (fun n => min wanted (n - (h.produced + 1))) + 1
  cases limited : h.settings.maxSamples with
  | none => rfl
  | some n =>
    simp only [limited, decide_eq_false_iff_not] at more
    simp only [Option.elim_some]
    omega

private theorem readMany_of_exhausted (ended : h.exhausted = true) (n : Nat) :
    (source.readMany timeout n h).1 = List.replicate n (.ok none) := by
  induction n with
  | zero => rfl
  | succ n ih =>
    have first : source.read timeout h = (.ok none, h) := read_of_exhausted ended
    rw [Source.readMany, first]
    exact congrArg (Except.ok none :: ·) ih

/-- The answers to `wanted` reads are the samples there still are, and then that there are no more. -/
structure Answers (h : SimulatedHead α) (wanted : Nat) (answers : List (Read α)) : Prop where
  calm : ∀ answer ∈ answers, answer.isOk = true
  count : (answers.filterMap Read.sample?).length = h.available wanted

theorem answers_of_exhausted (ended : h.exhausted = true) (n : Nat) :
    h.Answers n (source.readMany timeout n h).1 := by
  rw [readMany_of_exhausted ended]
  refine ⟨?_, by simp [available_of_exhausted ended, Read.sample?]⟩
  intro answer member
  rw [List.eq_of_mem_replicate member]
  rfl

/-- Whatever the clock shows, a timeout of one period less than there are samples is enough for them. -/
theorem Paced.answers (wanted : Nat) (paced : h.Paced)
    (patient : (h.produced + wanted - 1) * h.settings.period ≤ timeout) :
    h.Answers wanted (source.readMany timeout wanted h).1 := by
  induction wanted generalizing h with
  | zero => exact ⟨by simp [Source.readMany], (available_zero h).symm⟩
  | succ wanted ih =>
    cases ended : h.exhausted with
    | true => exact answers_of_exhausted ended _
    | false =>
      have due : h.untilNext ≤ timeout := by
        have early : h.produced * h.settings.period ≤ (h.produced + wanted) * h.settings.period :=
          Nat.mul_le_mul_right _ (Nat.le_add_right _ _)
        have later : h.untilNext ≤ h.next := Nat.sub_le _ _
        rw [paced.next] at later
        exact Nat.le_trans later (Nat.le_trans early patient)
      have first : source.read timeout h = _ := read_of_due ended due paced.connected
      have others := ih (paced.deliver h.untilNext) (by
        change (h.produced + 1 + wanted - 1) * h.settings.period ≤ timeout
        rwa [Nat.add_right_comm])
      rw [Source.readMany, first]
      refine ⟨List.forall_mem_cons.mpr ⟨rfl, others.calm⟩, ?_⟩
      rw [available_deliver ended h.untilNext, ← others.count]
      rfl

end Calorimetry.SimulatedHead
