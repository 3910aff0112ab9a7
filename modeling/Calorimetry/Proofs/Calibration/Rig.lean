import Calorimetry.Proofs.Calibration.Legs
import Calorimetry.Proofs.Tracking.Phases
import Mathlib.Logic.Function.Iterate

/-! A measuring head on a manual clock. A reading is due every period from time 0, and sleeping
delivers to a session all that are due by the time slept to. What a sleep does is thus told by how
many readings it delivers, and a wait does what one long sleep does, however it is sliced. -/

namespace Calorimetry.Calibration
variable {α : Type} [Scalar α]

/-- The time has no end here, where a clock of the machine stops at `Duration.limit`: that one overflows is
left out. -/
structure Rig (α : Type) [Scalar α] where
  time : Nat
  heaters : Heaters
  reading : α
  /-- The number of samples delivered, which is the number of the next one. -/
  delivered : Nat
  session : Session α

namespace Rig

/-- The next sample. Its reading is off from the one before by what the heaters do in a period. -/
def deliver (period : Duration) (rate : Heaters → α) (r : Rig α) : Rig α :=
  let reading := r.reading + rate r.heaters * period.seconds
  { r with
    reading
    delivered := r.delivered + 1
    session := r.session.ingest (.plain (r.delivered * period) reading) }

def advance (period : Duration) (rate : Heaters → α) (n : Nat) (r : Rig α) : Rig α :=
  (deliver period rate)^[n] r

/-- The number of samples still to be delivered up to the time `t`. -/
def due (period : Duration) (r : Rig α) (t : Nat) : Nat := t / period + 1 - r.delivered

def sleep (period : Duration) (rate : Heaters → α) (d : Duration) (r : Rig α) : Rig α :=
  { r.advance period rate (r.due period (r.time + d)) with time := r.time + d }

/-- The heaters never fail and nobody cancels. -/
def environment (period : Duration) (rate : Heaters → α) : Environment (Rig α) α where
  command h r := (.ok (), { r with heaters := h })
  sleep := sleep period rate
  now := time
  cancelled _ := false
  latestTime? r := r.session.meter.latestTime?
  slopeSince? since r := r.session.meter.slopeSince? since
  now_lt_sleep _ _ positive := Nat.lt_add_of_pos_right positive

/-- The sample delivered last, if there is one. -/
def latest (period : Duration) (r : Rig α) : Sample α :=
  .plain ((r.delivered - 1) * period) r.reading

/-- All samples due have been delivered. -/
def Synced (period : Duration) (r : Rig α) : Prop := r.delivered = r.time / period + 1

variable {period : Duration} {rate : Heaters → α} {r : Rig α}

theorem advance_succ (n : Nat) (r : Rig α) :
    r.advance period rate (n + 1) = (r.advance period rate n).deliver period rate :=
  Function.iterate_succ_apply' _ _ _

theorem advance_succ' (n : Nat) (r : Rig α) :
    r.advance period rate (n + 1) = (r.deliver period rate).advance period rate n :=
  Function.iterate_succ_apply _ _ _

private theorem advance_at (t n : Nat) (r : Rig α) :
    advance period rate n { r with time := t } = { r.advance period rate n with time := t } := by
  have moves : Function.Semiconj (fun r : Rig α => { r with time := t }) (deliver period rate)
      (deliver period rate) := fun _ => rfl
  exact (moves.iterate_right n r).symm

theorem advance_heaters (n : Nat) (r : Rig α) : (r.advance period rate n).heaters = r.heaters := by
  have stays : Function.Semiconj (heaters : Rig α → Heaters) (deliver period rate) id := fun _ => rfl
  rw [advance, stays.iterate_right n r, Function.iterate_id, id]

theorem advance_delivered (n : Nat) (r : Rig α) :
    (r.advance period rate n).delivered = r.delivered + n := by
  induction n with
  | zero => rfl
  | succ n ih =>
    rw [advance_succ, deliver, ih]
    rfl

theorem latest_advance_time (begun : 0 < r.delivered) (n : Nat) :
    ((r.advance period rate n).latest period).time = (r.latest period).time + n * period := by
  have number : r.delivered + n - 1 = r.delivered - 1 + n := by omega
  change ((r.advance period rate n).delivered - 1) * period = (r.delivered - 1) * period + _
  rw [advance_delivered, number, Nat.add_mul]

private theorem sleep_sleep (a b : Nat) (r : Rig α) :
    sleep period rate b (sleep period rate a r) = sleep period rate (a + b) r := by
  have later : (r.time + a) / period ≤ (r.time + (a + b)) / period :=
    Nat.div_le_div_right (Nat.add_le_add_left (Nat.le_add_right a b) _)
  have rest : (sleep period rate a r).due period (r.time + a + b) + r.due period (r.time + a) =
      r.due period (r.time + (a + b)) := by
    have count : (sleep period rate a r).delivered = r.delivered + r.due period (r.time + a) :=
      advance_delivered _ r
    unfold due at count ⊢
    rw [count, Nat.add_assoc r.time]
    omega
  have both : sleep period rate b (sleep period rate a r) =
      { advance period rate ((sleep period rate a r).due period (r.time + a + b))
          { r.advance period rate (r.due period (r.time + a)) with time := r.time + a } with
        time := r.time + a + b } := rfl
  rw [both, advance_at, advance, advance, ← Function.iterate_add_apply, rest, Nat.add_assoc]
  rfl

/-- However a wait is sliced, it leaves what sleeping through it at once leaves. -/
theorem waitUntil_eq (plan : Plan α) (start d : Nat) (r : Rig α) (begun : start ≤ r.time)
    (short : r.time < start + d) :
    waitUntil plan (environment period rate) start d r =
      (false, sleep period rate (start + d - r.time) r) := by
  induction r using waitUntil.induct plan (environment period rate) start d with
  | case1 r set => exact absurd set Bool.false_ne_true
  | case2 r _ done =>
    have past : d ≤ r.time - start := done
    omega
  | case3 r going unfinished slice ih =>
    have positive : 0 < plan.settings.poll := plan.poll_pos
    have elapsed : slice = min (d - (r.time - start)) plan.settings.poll := rfl
    have rest : ¬ d ≤ r.time - start := unfinished
    have moved : ((environment period rate).sleep slice r).time = r.time + slice := rfl
    have unfolded : waitUntil plan (environment period rate) start d r =
        waitUntil plan (environment period rate) start d
          ((environment period rate).sleep slice r) := by
      rw [waitUntil, if_neg going, if_neg unfinished]
    rw [unfolded]
    clear_value slice
    rcases Nat.lt_or_ge (r.time + slice) (start + d) with left | whole
    · have total : slice + (start + d - (r.time + slice)) = start + d - r.time := by omega
      rw [ih (by omega) left, moved, ← total, ← sleep_sleep]
      rfl
    · -- The last slice was cut to what was left.
      have all : start + d - r.time = slice := by omega
      have done : d ≤ r.time + slice - start := by omega
      have quiet : ¬ (environment period rate).cancelled
          ((environment period rate).sleep slice r) = true := Bool.false_ne_true
      rw [waitUntil, if_neg quiet, all]
      exact if_pos done

theorem waitUntil_sleep (period : Duration) (rate : Heaters → α) (plan : Plan α) {d : Nat}
    (positive : 0 < d) (r : Rig α) :
    waitUntil plan (environment period rate) ((environment period rate).now r) d r =
      (false, sleep period rate d r) := by
  have whole : waitUntil plan (environment period rate) r.time d r =
      (false, sleep period rate (r.time + d - r.time) r) :=
    waitUntil_eq plan r.time d r (Nat.le_refl _) (Nat.lt_add_of_pos_right positive)
  rw [Nat.add_sub_cancel_left] at whole
  exact whole

/-- What is delivered is told by the periods that begin while sleeping. -/
theorem Synced.sleep (synced : r.Synced period) (rate : Heaters → α) (d : Nat) :
    Rig.sleep period rate d r = { r.advance period rate ((r.time + d) / period - r.time / period)
        with time := r.time + d } ∧
      (Rig.sleep period rate d r).Synced period := by
  have later : r.time / period ≤ (r.time + d) / period :=
    Nat.div_le_div_right (Nat.le_add_right _ _)
  have count : r.due period (r.time + d) = (r.time + d) / period - r.time / period := by
    rw [due, synced, Nat.add_sub_add_right]
  have slept : Rig.sleep period rate d r =
      { r.advance period rate ((r.time + d) / period - r.time / period) with
        time := r.time + d } := by
    rw [Rig.sleep, count]
  refine ⟨slept, ?_⟩
  rw [slept]
  change (r.advance period rate _).delivered = (r.time + d) / period + 1
  rw [advance_delivered, synced]
  omega

/-- The measurement has the newest sample, and callbacks do nothing to it. -/
structure Live (c : MeterSettings α) (period : Duration) (r : Rig α) : Prop where
  passive : r.session.Passive
  faithful : r.session.meter.Faithful c
  begun : 0 < r.delivered
  newest : [r.latest period] <:+ r.session.meter.window.samples

variable {c : MeterSettings α}

theorem Live.moved (live : r.Live c period) (t : Nat) (h : Heaters) :
    Live c period { r with time := t, heaters := h } :=
  ⟨live.passive, live.faithful, live.begun, live.newest⟩

theorem Live.latestTime? (live : r.Live c period) :
    r.session.meter.latestTime? = some (r.latest period).time := by
  obtain ⟨older, whole⟩ := live.newest
  rw [Meter.latestTime?, Window.newest?_eq, ← whole, List.getLast?_concat]
  rfl

theorem Live.delivers (live : r.Live c period) (positive : 0 < period) (short : period < c.span)
    (finite : Scalar.isFinite (r.deliver period rate).reading = true) :
    (r.deliver period rate).Live c period ∧
      ∃ n, Meter.Steps c r.session.meter (r.deliver period rate).session.meter (r.latest period)
        ((r.deliver period rate).latest period) n := by
  have span : 0 < c.span := Nat.lt_trans positive short
  obtain ⟨fed, passive⟩ := r.session.ingest_passive ((r.deliver period rate).latest period)
    live.passive
  have gap : (r.delivered - 1) * period + period = r.delivered * period := by
    rw [← Nat.succ_mul, Nat.succ_eq_add_one, Nat.sub_add_cancel live.begun]
  have later : (r.latest period).time < ((r.deliver period rate).latest period).time := by
    change (r.delivered - 1) * period < r.delivered * period
    rw [← gap]
    exact Nat.lt_add_of_pos_right positive
  have recent : ((r.deliver period rate).latest period).time < (r.latest period).time + c.span := by
    change r.delivered * period < (r.delivered - 1) * period + c.span
    rw [← gap]
    exact Nat.add_lt_add_left short _
  obtain ⟨n, steps⟩ := Meter.feed_steps live.faithful span live.newest finite later recent
  rw [← fed] at steps
  refine ⟨⟨passive, steps.faithful, Nat.succ_pos _, ?_⟩, n, steps⟩
  apply Meter.record_keeps steps.recorded (List.cons_ne_nil _ _) (List.suffix_append _ _)
  rw [live.faithful.span]
  exact List.forall_mem_singleton.mpr (Nat.lt_add_of_pos_right span)

end Rig
end Calorimetry.Calibration
