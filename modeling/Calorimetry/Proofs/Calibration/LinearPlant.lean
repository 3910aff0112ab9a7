import Calorimetry.Proofs.LineFit
import Calorimetry.Proofs.Table
import Calorimetry.Proofs.Tracking.Phases
import Calorimetry.Proofs.Calibration.Rig

/-! Calibration of a plant whose reading rises in proportion to the heating power, in exact
arithmetic. Between heatings the pulses come to rest, each heating makes one pulse that begins with
the last sample before it, and the line through its samples has the rate of the plant. -/

namespace Calorimetry.Calibration

/-- A heating is a whole number of periods, long enough for a pulse, and stays in the window. A
cooloff is long enough for the pulse to end. -/
structure Plan.Fits (plan : Plan ℝ) (c : MeterSettings ℝ) (period : Duration) : Prop where
  heater : period ∣ plan.settings.heater
  long : c.minimum ≤ plan.settings.heater
  short : plan.settings.heater < c.span
  apart : c.reach * period ≤ plan.settings.cooloff

/-- Each heater of the plan makes the reading rise by `gain` for each milliwatt and second, faster
than the threshold, and without heating it stays. -/
structure Plan.Drives (plan : Plan ℝ) (gain threshold : ℝ) (rate : Heaters → ℝ) : Prop where
  positive : 0 < gain
  quiet : rate Heaters.off = 0
  rises : ∀ n ∈ plan.settings.order, rate (Heaters.only n) = gain * plan.power n
  hot : ∀ n ∈ plan.settings.order, threshold < gain * plan.power n

/-- What a calibration is to find for a heater. -/
def Plan.response {α : Type} [Scalar α] (plan : Plan α) (gain : α) (n : Nat) : Point α :=
  ⟨gain * plan.power n, plan.power n⟩

namespace Rig
variable {period : Duration} {rate : Heaters → ℝ} {c : MeterSettings ℝ} {r : Rig ℝ}

private theorem rateBetween_latest (positive : 0 < period) (begun : 0 < r.delivered) :
    Window.rateBetween (r.latest period) ((deliver period rate r).latest period) =
      rate r.heaters := by
  have step : r.delivered * period - (r.delivered - 1) * period = period := by
    rw [← Nat.sub_mul, Nat.sub_sub_self begun, Nat.one_mul]
  have seconds : (period.seconds : ℝ) ≠ 0 := (Duration.seconds_real_pos positive).ne'
  have between : Window.rateBetween (r.latest period) ((deliver period rate r).latest period) =
      (r.reading + rate r.heaters * period.seconds - r.reading) /
        Duration.seconds (r.delivered * period - (r.delivered - 1) * period) := rfl
  rw [between, step]
  field_simp
  ring

private theorem live_of_first (r : Rig ℝ) (rate : Heaters → ℝ) {t : Table ℝ}
    (meter : r.session.meter = Meter.start c t) (passive : r.session.Passive) (span : 0 < c.span) :
    (r.deliver period rate).Live c period ∧ (r.deliver period rate).session.meter.pulses = [] := by
  let x := (r.deliver period rate).latest period
  have first : Sample.plain (r.delivered * period) (r.deliver period rate).reading = x := by
    change Sample.plain (r.delivered * period) _ = .plain ((r.delivered + 1 - 1) * period) _
    rw [Nat.add_sub_cancel]
  obtain ⟨fed, still⟩ := r.session.ingest_passive x passive
  have same : (r.deliver period rate).session = r.session.ingest x := by
    rw [← first]
    rfl
  have taken : (r.deliver period rate).session.meter = (Meter.start c t).feed x := by
    rw [same, fed, meter]
  have finite : Scalar.isFinite x.reading = true := rfl
  obtain ⟨faithful, alone, none⟩ := Meter.start_feed c t span finite
  rw [← taken] at faithful alone none
  refine ⟨⟨?_, faithful, Nat.succ_pos _, ?_⟩, none⟩
  · rw [same]
    exact still
  · rw [alone]

private theorem Live.rests (live : r.Live c period) (positive : 0 < period) (short : period < c.span)
    (cold : rate r.heaters ≤ c.threshold) {count : Nat} (idle : r.session.meter.Idle count) (n : Nat) :
    let next := r.advance period rate n
    next.Live c period ∧ next.session.meter.Idle (count + n) ∧
      (r.session.meter.pulses = [] → next.session.meter.pulses = []) := by
  induction n with
  | zero => exact ⟨live, idle, id⟩
  | succ n ih =>
    obtain ⟨before, idle, empty⟩ := ih
    obtain ⟨next, _, steps⟩ := before.delivers positive short rfl
    have below : Scalar.lt c.threshold (Window.rateBetween
        ((r.advance period rate n).latest period)
        (((r.advance period rate n).deliver period rate).latest period)) = false := by
      rw [rateBetween_latest positive before.begun, advance_heaters]
      exact (Scalar.Real.lt_eq_false_iff _ _).mpr cold
    obtain ⟨longer, none⟩ := steps.rests before.faithful idle below
    rw [advance_succ]
    exact ⟨next, longer, fun nothing => none (empty nothing)⟩

private theorem advance_reading (n : Nat) (r : Rig ℝ) : (r.advance period rate n).reading =
    r.reading + n * (rate r.heaters * period.seconds) := by
  induction n with
  | zero => simp [advance]
  | succ n ih =>
    rw [advance_succ, deliver, advance_heaters]
    dsimp only
    rw [ih, Nat.cast_succ]
    ring

/-- Heating makes one pulse, which begins with the last sample before it. -/
private theorem Live.heats (live : r.Live c period) (positive : 0 < period)
    (idle : r.session.meter.Idle c.reach) (hot : c.threshold < rate r.heaters) (k : Nat)
    (short : (k + 1) * period < c.span) :
    let next := r.advance period rate (k + 1)
    next.Live c period ∧ next.session.meter.Heats c (r.latest period) (next.latest period)
      ((List.range (k + 2)).map fun i => (r.advance period rate i).latest period) := by
  have span : 0 < c.span := Nat.lt_of_le_of_lt (Nat.zero_le _) short
  have brief : period < c.span :=
    Nat.lt_of_le_of_lt (Nat.le_mul_of_pos_left period (Nat.succ_pos k)) short
  have above (n : Nat) (begun : 0 < (r.advance period rate n).delivered) :
      Scalar.lt c.threshold (Window.rateBetween ((r.advance period rate n).latest period)
        (((r.advance period rate n).deliver period rate).latest period)) = true := by
    rw [rateBetween_latest positive begun, advance_heaters]
    exact (Scalar.Real.lt_iff _ _).mpr hot
  have recent (i j : Nat) (bound : j * period < c.span) :
      ((r.advance period rate j).latest period).time <
        ((r.advance period rate i).latest period).time + c.span := by
    rw [latest_advance_time live.begun, latest_advance_time live.begun]
    exact Nat.lt_of_lt_of_le (Nat.add_lt_add_left bound _)
      (Nat.add_le_add_right (Nat.le_add_right _ _) _)
  -- The first sample begins the pulse. Each further one finds it ending with the sample before, and
  -- its first sample still in the window.
  induction k with
  | zero =>
    obtain ⟨next, n, steps⟩ := live.delivers positive brief rfl
    have heats := steps.begins live.faithful idle live.newest span (recent 0 1 short)
      (above 0 live.begun)
    exact ⟨next, heats⟩
  | succ k ih =>
    obtain ⟨before, heats⟩ := ih (Nat.lt_of_le_of_lt (Nat.mul_le_mul_right _ (Nat.le_succ _)) short)
    obtain ⟨next, n, steps⟩ := before.delivers positive brief rfl
    have young : ∀ a ∈ (List.range (k + 2)).map fun i => (r.advance period rate i).latest period,
        (((r.advance period rate (k + 1)).deliver period rate).latest period).time <
          a.time + c.span := by
      intro a member
      obtain ⟨i, _, rfl⟩ := List.mem_map.mp member
      rw [← advance_succ]
      exact recent i (k + 2) short
    have longer := steps.extends heats span young (above _ before.begun)
    rw [List.range_succ, List.map_append, List.map_singleton, advance_succ]
    exact ⟨next, longer⟩

private theorem Live.slopeSince? (live : r.Live c period) (positive : 0 < period)
    (idle : r.session.meter.Idle c.reach) (hot : c.threshold < rate r.heaters) (k : Nat)
    (short : (k + 1) * period < c.span) (long : c.minimum ≤ (k + 1) * period) :
    (r.advance period rate (k + 1)).session.meter.slopeSince? (r.latest period).time =
      some (rate r.heaters) := by
  obtain ⟨_, heats⟩ := live.heats positive idle hot k short
  have seconds (i : Nat) : Duration.secondsBetween (r.latest period).time
      ((r.advance period rate i).latest period).time = i * (period.seconds : ℝ) := by
    rw [Duration.secondsBetween, latest_advance_time live.begun, Nat.add_sub_cancel_left,
      Duration.seconds_real, Duration.seconds_real, Nat.cast_mul]
    ring
  have length : c.minimum ≤
      ((r.advance period rate (k + 1)).latest period).time - (r.latest period).time := by
    rw [latest_advance_time live.begun, Nat.add_sub_cancel_left]
    exact long
  let line := (List.range (k + 2)).map fun i => (r.advance period rate i).latest period
  let readings := PulseFit.timedReadings (r.latest period).time line
  have on : ∀ p ∈ readings, p.2 = rate r.heaters * p.1 + r.reading := by
    intro p member
    obtain ⟨a, present, rfl⟩ := List.mem_map.mp member
    obtain ⟨i, _, rfl⟩ := List.mem_map.mp present
    dsimp only
    rw [seconds]
    refine (advance_reading i r).trans ?_
    ring
  have point (i : Nat) (few : i < k + 2) :
      ((i * period.seconds : ℝ), ((r.advance period rate i).latest period).reading) ∈ readings := by
    rw [← seconds]
    exact List.mem_map_of_mem (List.mem_map_of_mem (List.mem_range.mpr few))
  have apart : ∃ p ∈ readings, ∃ q ∈ readings, p.1 ≠ q.1 := by
    refine ⟨_, point 0 (by omega), _, point 1 (by omega), ?_⟩
    have differ : (period.seconds : ℝ) ≠ 0 := (Duration.seconds_real_pos positive).ne'
    simpa using differ.symm
  rw [heats.slopeSince? length _ (Nat.le_refl _),
    LineFit.ofPoints_of_line _ (rate r.heaters) r.reading readings on apart]

/-- Before a heating: nothing is due, and no pulse can go on. -/
structure Standing (c : MeterSettings ℝ) (period : Duration) (r : Rig ℝ) : Prop where
  live : r.Live c period
  synced : r.Synced period
  idle : r.session.meter.Idle c.reach

private theorem Standing.heat (standing : r.Standing c period) (positive : 0 < period) {d : Nat}
    (whole : period ∣ d) (some : 0 < d) (long : c.minimum ≤ d) (short : d < c.span) {h : Heaters}
    (hot : c.threshold < rate h) :
    let next := sleep period rate d { r with heaters := h }
    next.Live c period ∧ next.Synced period ∧
      next.session.meter.slopeSince? (r.latest period).time = Option.some (rate h) := by
  obtain ⟨k, rfl⟩ := whole
  obtain ⟨k, rfl⟩ := Nat.exists_eq_succ_of_ne_zero (Nat.pos_of_mul_pos_left some).ne'
  let on : Rig ℝ := { r with heaters := h }
  have live : on.Live c period := standing.live.moved r.time h
  rw [Nat.mul_comm] at long short ⊢
  have synced : on.Synced period := standing.synced
  have count : (on.time + (k + 1) * period) / period - on.time / period = k + 1 := by
    rw [Nat.add_mul_div_right _ _ positive, Nat.add_sub_cancel_left]
  obtain ⟨slept, still⟩ := synced.sleep rate ((k + 1) * period)
  have slope := live.slopeSince? positive standing.idle hot k short long
  obtain ⟨after, _⟩ := live.heats positive standing.idle hot k short
  rw [count] at slept
  refine ⟨?_, still, ?_⟩
  · rw [slept]
    exact after.moved _ _
  · rw [slept]
    exact slope

private theorem Live.cool (live : r.Live c period) (synced : r.Synced period) (positive : 0 < period)
    (short : period < c.span) {d : Nat} (apart : c.reach * period ≤ d) {h : Heaters}
    (cold : rate h ≤ c.threshold) :
    (sleep period rate d { r with heaters := h }).Standing c period := by
  let off : Rig ℝ := { r with heaters := h }
  have quiet : off.Live c period := live.moved r.time h
  have ready : off.Synced period := synced
  obtain ⟨slept, still⟩ := ready.sleep rate d
  obtain ⟨after, idle, _⟩ := quiet.rests positive short cold (Meter.idle_zero _)
    ((off.time + d) / period - off.time / period)
  have enough : c.reach ≤ 0 + ((off.time + d) / period - off.time / period) := by
    have later : (off.time + c.reach * period) / period ≤ (off.time + d) / period :=
      Nat.div_le_div_right (Nat.add_le_add_left apart _)
    rw [Nat.add_mul_div_right _ _ positive] at later
    omega
  refine ⟨?_, still, ?_⟩
  · rw [slept]
    exact after.moved _ _
  · rw [slept]
    intro p member growing j found
    exact Nat.lt_of_le_of_lt (Nat.add_le_add_left enough j) (idle p member growing j found)

private theorem standing_of_fresh {t : Table ℝ} (meter : r.session.meter = Meter.start c t)
    (passive : r.session.Passive) (fresh : r.delivered = 0) (positive : 0 < period)
    (short : period < c.span) (d : Nat) {h : Heaters} (cold : rate h ≤ c.threshold) :
    let next := sleep period rate d { r with heaters := h }
    next.Standing c period ∧ next.session.meter.pulses = [] := by
  let off : Rig ℝ := { r with heaters := h }
  have span : 0 < c.span := Nat.lt_trans positive short
  obtain ⟨live, none⟩ := off.live_of_first rate meter passive span
  obtain ⟨n, count⟩ : ∃ n, (off.time + d) / period = n := ⟨_, rfl⟩
  have due : off.due period (off.time + d) = n + 1 := by
    rw [due, count]
    exact congrArg (n + 1 - ·) fresh
  have slept : sleep period rate d off =
      { (off.deliver period rate).advance period rate n with time := off.time + d } := by
    rw [sleep, due, advance_succ']
  obtain ⟨after, _, empty⟩ := live.rests positive short cold (Meter.idle_zero _) n
  have nothing := empty none
  dsimp only
  rw [slept]
  refine ⟨⟨after.moved _ _, ?_, ?_⟩, nothing⟩
  · change ((off.deliver period rate).advance period rate n).delivered = (off.time + d) / period + 1
    rw [advance_delivered, count]
    change off.delivered + 1 + n = n + 1
    rw [fresh]
    omega
  · intro p member
    rw [nothing] at member
    contradiction

end Rig

private theorem Plan.phases_pos {α : Type} [Scalar α] (plan : Plan α) :
    0 < plan.settings.baseline ∧ 0 < plan.settings.heater ∧ 0 < plan.settings.cooloff := by
  have sound := plan.sound
  rw [SequenceSettings.fault?] at sound
  split at sound
  · contradiction
  split at sound
  · contradiction
  split at sound
  · contradiction
  refine ⟨Nat.pos_of_ne_zero ?_, Nat.pos_of_ne_zero ?_, Nat.pos_of_ne_zero ?_⟩ <;> assumption

section
variable {plan : Plan ℝ} {period : Duration} {rate : Heaters → ℝ} {c : MeterSettings ℝ} {r : Rig ℝ}
  {gain : ℝ}

private theorem Plan.Fits.period_lt (fits : plan.Fits c period) : period < c.span :=
  Nat.lt_of_le_of_lt (Nat.le_of_dvd plan.phases_pos.2.1 fits.heater) fits.short

private theorem runHeater_standing (fits : plan.Fits c period)
    (drives : plan.Drives gain c.threshold rate) (threshold : 0 < c.threshold)
    (positive : 0 < period) (standing : r.Standing c period) {n : Nat}
    (member : n ∈ plan.settings.order) (points : List (Point ℝ)) :
    ∃ next : Rig ℝ, next.Standing c period ∧
      Progress.runHeater plan (Rig.environment period rate) ⟨r, points, none⟩ n =
        ⟨next, points ++ [plan.response gain n], none⟩ := by
  obtain ⟨_, heater, cooloff⟩ := plan.phases_pos
  let env := Rig.environment period rate
  let on : Rig ℝ := { r with heaters := Heaters.only n }
  let heated := Rig.sleep period rate plan.settings.heater on
  let off : Rig ℝ := { heated with heaters := Heaters.off }
  let cooled := Rig.sleep period rate plan.settings.cooloff off
  have hot : c.threshold < rate (Heaters.only n) := by
    rw [drives.rises n member]
    exact drives.hot n member
  obtain ⟨live, synced, slope⟩ :=
    standing.heat positive fits.heater heater fits.long fits.short hot
  have rested : cooled.Standing c period := by
    apply live.cool synced positive fits.period_lt fits.apart
    rw [drives.quiet]
    exact threshold.le
  have asked : (env.slopeSince? ((env.latestTime? on).getD 0) heated).getD 0 =
      gain * plan.power n := by
    change (heated.session.meter.slopeSince? (r.session.meter.latestTime?.getD 0)).getD 0 = _
    rw [standing.live.latestTime?, Option.getD_some, slope, Option.getD_some]
    exact drives.rises n member
  have first : Progress.switch env (.heater n) (Heaters.only n) ⟨r, points, none⟩ =
      ⟨on, points, none⟩ := Progress.switch_of_ok rfl _ _
  have second : Progress.measure plan env (.heater n) plan.settings.heater (plan.power n)
      ⟨on, points, none⟩ = ⟨heated, points ++ [plan.response gain n], none⟩ := by
    rw [Plan.response, ← asked]
    exact Progress.measure_of_whole (Rig.waitUntil_sleep period rate plan heater on) _ _ _
  have third (points : List (Point ℝ)) : Progress.switch env (.heater n) Heaters.off
      ⟨heated, points, none⟩ = ⟨off, points, none⟩ := Progress.switch_of_ok rfl _ _
  have fourth (points : List (Point ℝ)) : Progress.wait plan env (.cooloff n)
      plan.settings.cooloff ⟨off, points, none⟩ = ⟨cooled, points, none⟩ :=
    Progress.wait_of_whole (Rig.waitUntil_sleep period rate plan cooloff off) _ _
  refine ⟨cooled, rested, ?_⟩
  rw [Progress.runHeater, first, second, third, fourth]

private theorem heaters_standing (fits : plan.Fits c period)
    (drives : plan.Drives gain c.threshold rate) (threshold : 0 < c.threshold)
    (positive : 0 < period) (standing : r.Standing c period) {order : List Nat}
    (chosen : ∀ n ∈ order, n ∈ plan.settings.order) (points : List (Point ℝ)) :
    ∃ next : Rig ℝ,
      order.foldl (Progress.runHeater plan (Rig.environment period rate)) ⟨r, points, none⟩ =
        ⟨next, points ++ order.map (plan.response gain), none⟩ := by
  induction order generalizing r points with
  | nil =>
    rw [List.map_nil, List.append_nil]
    exact ⟨r, rfl⟩
  | cons n rest ih =>
    obtain ⟨first, others⟩ := List.forall_mem_cons.mp chosen
    obtain ⟨next, rested, did⟩ :=
      runHeater_standing fits drives threshold positive standing first points
    obtain ⟨last, through⟩ := ih rested others (points ++ [plan.response gain n])
    refine ⟨last, ?_⟩
    rw [List.foldl_cons, did, through, List.append_assoc]
    rfl

private theorem sequence_standing (fits : plan.Fits c period)
    (drives : plan.Drives gain c.threshold rate) (threshold : 0 < c.threshold)
    (positive : 0 < period) {t : Table ℝ} (meter : r.session.meter = Meter.start c t)
    (passive : r.session.Passive) (fresh : r.delivered = 0) :
    ∃ next : Rig ℝ, sequence plan (Rig.environment period rate) r =
      ⟨next, ⟨0, 0⟩ :: plan.settings.order.map (plan.response gain), none⟩ := by
  let env := Rig.environment period rate
  let off : Rig ℝ := { r with heaters := Heaters.off }
  let waited := Rig.sleep period rate plan.settings.baseline off
  have cold : rate Heaters.off ≤ c.threshold := by
    rw [drives.quiet]
    exact threshold.le
  obtain ⟨standing, empty⟩ :=
    Rig.standing_of_fresh meter passive fresh positive fits.period_lt plan.settings.baseline cold
  have flat : (env.slopeSince? ((env.latestTime? off).getD 0) waited).getD 0 = 0 := by
    have none : waited.session.meter.slopeSince? ((env.latestTime? off).getD 0) = none := by
      rw [Meter.slopeSince?, empty]
      rfl
    exact congrArg (Option.getD · 0) none
  have switched : Progress.switch env .baseline Heaters.off ⟨r, [], none⟩ = ⟨off, [], none⟩ :=
    Progress.switch_of_ok rfl _ _
  have resting : Progress.measure plan env .baseline plan.settings.baseline 0 ⟨off, [], none⟩ =
      ⟨waited, [⟨0, 0⟩], none⟩ := by
    have noted := Progress.measure_of_whole
      (Rig.waitUntil_sleep period rate plan plan.phases_pos.1 off) .baseline 0 []
    rw [flat] at noted
    exact noted
  obtain ⟨next, through⟩ := heaters_standing fits drives threshold positive standing
    (fun _ member => member) [⟨0, 0⟩]
  refine ⟨next, ?_⟩
  rw [sequence, switched, resting, through]
  rfl

private theorem fault?_sorted_of_line (positive : 0 < gain) {points : List (Point ℝ)}
    (on : ∀ p ∈ points, p.slope = gain * p.power) : Point.fault? (Table.sorted points) = none := by
  refine (Table.fault?_sorted_iff points).mpr ⟨fun _ _ => rfl, ?_⟩
  intro a first b second less
  rw [Scalar.Real.order_eq_lt_iff, on a first, on b second] at less
  exact (Scalar.Real.lt_eq_false_iff _ _).mpr (lt_of_mul_lt_mul_left less positive.le).le

end

theorem run_recovers (plan : Plan ℝ) {c : MeterSettings ℝ} {points : List (Point ℝ)} {m : Meter ℝ}
    (built : Meter.ofSettings c points = .ok m) {period : Duration} (positive : 0 < period)
    (fits : plan.Fits c period) {gain : ℝ} {rate : Heaters → ℝ}
    (drives : plan.Drives gain c.threshold rate) (r : Rig ℝ) (meter : r.session.meter = m)
    (passive : r.session.Passive) (fresh : r.delivered = 0) :
    ∃ table, (run plan (Rig.environment period rate) r).1 = .ok table ∧
      table.points = Table.sorted (⟨0, 0⟩ :: plan.settings.order.map fun n =>
        ⟨gain * plan.power n, plan.power n⟩) := by
  obtain ⟨valid, t, _, rfl⟩ := Meter.ofSettings_eq_ok built
  have threshold := (Scalar.Real.isPositive_iff _).mp (MeterSettings.isPositive_threshold valid)
  obtain ⟨next, through⟩ := sequence_standing fits drives threshold positive meter passive fresh
  let found : List (Point ℝ) := ⟨0, 0⟩ :: plan.settings.order.map (plan.response gain)
  have on : ∀ p ∈ found, p.slope = gain * p.power := by
    refine List.forall_mem_cons.mpr ⟨(mul_zero gain).symm, ?_⟩
    intro p member
    obtain ⟨n, _, rfl⟩ := List.mem_map.mp member
    rfl
  have sound := fault?_sorted_of_line drives.positive on
  rcases Table.ofPoints_cases (Table.sorted found) with ⟨table, made, same, _⟩ | ⟨e, _, fault⟩
  · refine ⟨table, ?_, same⟩
    rw [run, through]
    dsimp only
    rw [made]
  · rw [sound] at fault
    contradiction

/-! A head with the usual settings, sampled ten times a second. -/

namespace Head

private theorem isPositive_of_pos {x : ℝ} (above : 0 < x) : Scalar.isPositive x = true :=
  (Scalar.Real.isPositive_iff x).mpr above

noncomputable def settings : MeterSettings ℝ := {}

def period : Duration := Duration.ofMillis 100

private theorem built : Meter.ofSettings settings [] = .ok (Meter.start settings Table.empty) := by
  have threshold : Scalar.isPositive (0.001 : ℝ) = true := isPositive_of_pos (by norm_num)
  have factor : Scalar.isPositive (3.0 : ℝ) = true := isPositive_of_pos (by norm_num)
  have valid : settings.fault? = none := by
    simp only [settings, MeterSettings.fault?, threshold, factor]
    rfl
  rw [Meter.ofSettings, valid]
  rfl

private theorem sound : SequenceSettings.fault? ({} : SequenceSettings ℝ) = none := by
  have voltage : Scalar.isPositive (5.0 : ℝ) = true := isPositive_of_pos (by norm_num)
  have first : Scalar.isPositive (2300.0 : ℝ) = true := isPositive_of_pos (by norm_num)
  have second : Scalar.isPositive (500.0 : ℝ) = true := isPositive_of_pos (by norm_num)
  have third : Scalar.isPositive (200.0 : ℝ) = true := isPositive_of_pos (by norm_num)
  simp only [SequenceSettings.fault?, PerHeater.toList, List.any_cons, List.any_nil, voltage, first,
    second, third]
  rfl

noncomputable def plan : Plan ℝ := ⟨{}, sound⟩

private theorem powers : plan.power 1 = 250 / 23 ∧ plan.power 2 = 50 ∧ plan.power 3 = 125 := by
  norm_num [Plan.power, plan, PerHeater.get?, PerHeater.toList, SequenceSettings.dissipated]

noncomputable def rate (h : Heaters) : ℝ :=
  0.001 * ((if h.first then plan.power 1 else 0) + (if h.second then plan.power 2 else 0) +
    (if h.third then plan.power 3 else 0))

noncomputable def rig : Rig ℝ where
  time := 0
  heaters := Heaters.off
  reading := 0
  delivered := 0
  session := { meter := Meter.start settings Table.empty }

private theorem fits : plan.Fits settings period where
  heater := by decide
  long := by decide
  short := by decide
  apart := by decide

private theorem drives : plan.Drives 0.001 settings.threshold rate where
  positive := by norm_num
  quiet := by simp [rate, Heaters.off]
  rises := by simp [plan, rate, Heaters.only]
  hot := by
    obtain ⟨first, second, third⟩ := powers
    change ∀ n ∈ [1, 2, 3], (0.001 : ℝ) < 0.001 * plan.power n
    norm_num [first, second, third]

end Head

theorem run_recovers_usual_head :
    ∃ table, (run Head.plan (Rig.environment Head.period Head.rate) Head.rig).1 = .ok table ∧
      table.points = Table.sorted
        [⟨0, 0⟩, ⟨0.001 * (250 / 23), 250 / 23⟩, ⟨0.001 * 50, 50⟩, ⟨0.001 * 125, 125⟩] := by
  obtain ⟨table, made, points⟩ := run_recovers Head.plan Head.built (by decide) Head.fits
    Head.drives Head.rig rfl (fun _ member => absurd member List.not_mem_nil) rfl
  obtain ⟨first, second, third⟩ := Head.powers
  refine ⟨table, made, ?_⟩
  rw [points, ← first, ← second, ← third]
  rfl

end Calorimetry.Calibration
