import Calorimetry.Proofs.Simulator

/-! The pace of the simulated head. Whatever is done with the head and its clock in between, its samples are
numbered without a gap, each is stamped with as many periods as samples came before it, and none comes before
its time. A read that fails leaves everything but the clock as it was. -/

namespace Calorimetry
variable {α : Type} [Scalar α]

/-- What is done with a head. Time also passes when nobody reads. -/
inductive HeadEvent where
  | read (timeout : Duration)
  | command (heaters : Heaters)
  | connect (on : Bool)
  | refuse (switchOn : Nat)
  | pass (d : Duration)

/-- A sample with the heaters that were on and the time on the clock when it was delivered. -/
structure Delivery (α : Type) where
  sample : Sample α
  heaters : Heaters
  time : Duration

namespace SimulatorSettings

/-- Temperature at sample `k`, given the one at the sample before. -/
def warmed (c : SimulatorSettings α) (k : Nat) (temperature : α) (heaters : Heaters) : α :=
  temperature + c.approach * (c.target heaters (k * c.period) - temperature)

def sampleAt (c : SimulatorSettings α) (k : Nat) (temperature : α) (heaters : Heaters) : Sample α where
  time := k * c.period
  reading := temperature + noiseAt (k * c.period) * c.noise
  voltage := if heaters.anyOn then c.voltage else 0
  heaterPower := c.heaterPower heaters / 1000.0

/-- The samples from number `k` on, given the heaters at each of them. -/
def samplesFrom (c : SimulatorSettings α) : Nat → α → List Heaters → List (Sample α)
  | _, _, [] => []
  | k, temperature, heaters :: rest =>
    c.sampleAt k (c.warmed k temperature heaters) heaters ::
      c.samplesFrom (k + 1) (c.warmed k temperature heaters) rest

end SimulatorSettings

/-- What delivery `k` has to do with the schedule and the heaters. -/
structure Delivery.Due (d : Delivery α) (c : SimulatorSettings α) (k : Nat) : Prop where
  stamp : d.sample.time = k * c.period
  late : k * c.period ≤ d.time
  voltage : d.sample.voltage = if d.heaters.anyOn then c.voltage else 0
  power : d.sample.heaterPower = c.heaterPower d.heaters / 1000.0

namespace SimulatedHead
variable {h : SimulatedHead α}

def undergo (h : SimulatedHead α) : HeadEvent → SimulatedHead α
  | .read timeout => (h.read timeout).2
  | .command heaters => (h.command heaters).2
  | .connect on => { h with bank := { h.bank with connected := on } }
  | .refuse switchOn => { h with bank := { h.bank with failOn := some switchOn } }
  | .pass d => h.advance d

def after (h : SimulatedHead α) (events : List HeadEvent) : SimulatedHead α := events.foldl undergo h

def delivery? (h : SimulatedHead α) : HeadEvent → Option (Delivery α)
  | .read timeout =>
    match h.read timeout with
    | (.ok (some s), next) => some ⟨s, h.bank.heaters, next.clock.elapsed⟩
    | _ => none
  | _ => none

def deliveries (h : SimulatedHead α) : List HeadEvent → List (Delivery α)
  | [] => []
  | e :: rest => (h.delivery? e).toList ++ (h.undergo e).deliveries rest

/-- What a read of a head comes to that has delivered `k` samples. -/
inductive Reads (h : SimulatedHead α) (k : Nat) (timeout : Duration) : Read α × SimulatedHead α → Prop
  | ended (last : h.settings.maxSamples = some k) : Reads h k timeout (.ok none, h)
  | timedOut {clock : Clock} (more : h.settings.maxSamples ≠ some k)
      (waited : clock.elapsed = h.clock.elapsed + timeout)
      (early : clock.elapsed < k * h.settings.period) :
      Reads h k timeout (.error .timeout, { h with clock := clock })
  | unlinked {clock : Clock} (more : h.settings.maxSamples ≠ some k)
      (off : h.bank.connected = false)
      (waited : clock.elapsed = max h.clock.elapsed (k * h.settings.period)) :
      Reads h k timeout (.error .disconnected, { h with clock := clock })
  | delivered {s : Sample α} {next : SimulatedHead α} (more : h.settings.maxSamples ≠ some k)
      (on : h.bank.connected = true) (stamp : s.time = k * h.settings.period)
      (bank : next.bank = h.bank)
      (waited : next.clock.elapsed = max h.clock.elapsed (k * h.settings.period)) :
      Reads h k timeout (.ok (some s), next)

/-- The next sample is due as many periods after the start as samples have been delivered, and those are not
more than there are to be. -/
structure Scheduled (h : SimulatedHead α) : Prop where
  next : h.next = h.produced * h.settings.period
  limited : ∀ m, h.settings.maxSamples = some m → h.produced ≤ m

theorem start_scheduled (c : SimulatorSettings α) : (start c).Scheduled where
  next := (Nat.zero_mul c.period).symm
  limited m _ := Nat.zero_le m

private theorem exhausted_iff (scheduled : h.Scheduled) :
    h.exhausted = true ↔ h.settings.maxSamples = some h.produced := by
  unfold exhausted
  cases limited : h.settings.maxSamples with
  | none => simp
  | some m =>
    have least := scheduled.limited m limited
    simp only [decide_eq_true_eq, Option.some.injEq]
    omega

private theorem exhausted_eq_false_iff (scheduled : h.Scheduled) :
    h.exhausted = false ↔ h.settings.maxSamples ≠ some h.produced := by
  rw [← Bool.not_eq_true, exhausted_iff scheduled]

private theorem Scheduled.deliver_eq (scheduled : h.Scheduled) (d : Duration) :
    (h.advance d).deliver =
      (h.settings.sampleAt h.produced (h.settings.warmed h.produced h.temperature h.bank.heaters)
          h.bank.heaters,
        { h with
          clock := h.clock.advance d
          temperature := h.settings.warmed h.produced h.temperature h.bank.heaters
          next := (h.produced + 1) * h.settings.period
          produced := h.produced + 1 }) := by
  unfold deliver SimulatorSettings.sampleAt SimulatorSettings.warmed
  simp [advance, scheduled.next, Nat.succ_mul]

/-- Nothing but the clock and the bank has changed. -/
structure Holds (h next : SimulatedHead α) : Prop where
  settings : next.settings = h.settings
  temperature : next.temperature = h.temperature
  due : next.next = h.next
  produced : next.produced = h.produced

private theorem Holds.scheduled {next : SimulatedHead α} (holds : h.Holds next) (scheduled : h.Scheduled) :
    next.Scheduled where
  next := by rw [holds.due, holds.produced, holds.settings, scheduled.next]
  limited := by rw [holds.settings, holds.produced]; exact scheduled.limited

/-- A read delivers the sample that is next, or it leaves all but the clock alone. -/
theorem read_cases (h : SimulatedHead α) (timeout : Duration) :
    h.exhausted = true ∧ h.read timeout = (.ok none, h) ∨
      h.exhausted = false ∧
        (timeout < h.untilNext ∧ h.read timeout = (.error .timeout, h.advance timeout) ∨
          h.bank.connected = false ∧
            h.read timeout = (.error .disconnected, h.advance h.untilNext) ∨
          h.bank.connected = true ∧ h.read timeout =
            (.ok (some (h.advance h.untilNext).deliver.1), (h.advance h.untilNext).deliver.2)) := by
  cases ended : h.exhausted with
  | true => exact .inl ⟨rfl, read_of_exhausted ended⟩
  | false =>
    refine .inr ⟨rfl, ?_⟩
    by_cases due : h.untilNext ≤ timeout
    · cases connected : h.bank.connected with
      | true => exact .inr (.inr ⟨rfl, read_of_due ended due connected⟩)
      | false =>
        refine .inr (.inl ⟨rfl, ?_⟩)
        simp [read, ended, Nat.not_lt_of_le due, advance, connected]
    · refine .inl ⟨Nat.lt_of_not_le due, ?_⟩
      simp [read, ended, Nat.lt_of_not_le due]

/-! ## One event -/

/-- The sample that is next, delivered at the time it is due or at once if that is past. -/
def nextDelivery (h : SimulatedHead α) : Delivery α where
  sample := (h.advance h.untilNext).deliver.1
  heaters := h.bank.heaters
  time := (h.clock.advance h.untilNext).elapsed

private theorem undergo_cases (scheduled : h.Scheduled) (e : HeadEvent) :
    h.delivery? e = none ∧ h.Holds (h.undergo e) ∨
      h.delivery? e = some h.nextDelivery ∧ h.undergo e = (h.advance h.untilNext).deliver.2 ∧
        h.settings.maxSamples ≠ some h.produced := by
  cases e with
  | read timeout =>
    simp only [delivery?, undergo]
    rcases h.read_cases timeout with ⟨_, answer⟩ | ⟨more, ⟨_, answer⟩ | ⟨_, answer⟩ | ⟨_, answer⟩⟩
    · rw [answer]
      exact .inl ⟨rfl, rfl, rfl, rfl, rfl⟩
    · rw [answer]
      exact .inl ⟨rfl, rfl, rfl, rfl, rfl⟩
    · rw [answer]
      exact .inl ⟨rfl, rfl, rfl, rfl, rfl⟩
    · rw [answer]
      exact .inr ⟨rfl, rfl, (exhausted_eq_false_iff scheduled).mp more⟩
  | command heaters => exact .inl ⟨rfl, rfl, rfl, rfl, rfl⟩
  | connect on => exact .inl ⟨rfl, rfl, rfl, rfl, rfl⟩
  | refuse switchOn => exact .inl ⟨rfl, rfl, rfl, rfl, rfl⟩
  | pass d => exact .inl ⟨rfl, rfl, rfl, rfl, rfl⟩

private theorem Scheduled.undergo (scheduled : h.Scheduled) (e : HeadEvent) : (h.undergo e).Scheduled := by
  rcases undergo_cases scheduled e with ⟨_, holds⟩ | ⟨_, same, more⟩
  · exact holds.scheduled scheduled
  · rw [same, scheduled.deliver_eq]
    refine ⟨rfl, fun m limited => ?_⟩
    have least := scheduled.limited m limited
    have other : m ≠ h.produced := fun last => more (last ▸ limited)
    dsimp only
    omega

private theorem undergo_settings (scheduled : h.Scheduled) (e : HeadEvent) :
    (h.undergo e).settings = h.settings := by
  rcases undergo_cases scheduled e with ⟨_, holds⟩ | ⟨_, same, _⟩
  · exact holds.settings
  · rw [same, scheduled.deliver_eq]

private theorem undergo_produced (scheduled : h.Scheduled) (e : HeadEvent) :
    (h.undergo e).produced = h.produced + (h.delivery? e).toList.length := by
  rcases undergo_cases scheduled e with ⟨none, holds⟩ | ⟨some, same, _⟩
  · simp [none, holds.produced]
  · simp [some, same, scheduled.deliver_eq]

private theorem total_le_undergo (h : SimulatedHead α) (e : HeadEvent) :
    h.clock.total ≤ (h.undergo e).clock.total := by
  cases e with
  | read timeout =>
    rcases h.read_cases timeout with ⟨_, answer⟩ | ⟨_, ⟨_, answer⟩ | ⟨_, answer⟩ | ⟨_, answer⟩⟩ <;>
      simp [undergo, answer, advance, deliver, Clock.advance]
  | command heaters => exact Nat.le_refl _
  | connect on => exact Nat.le_refl _
  | refuse switchOn => exact Nat.le_refl _
  | pass d => exact Nat.le_add_right _ _

private theorem elapsed_of_fits {clock : Clock} (fits : clock.total ≤ Duration.limit) :
    clock.elapsed = clock.total := Nat.min_eq_left fits

private theorem elapsed_advance {clock : Clock} {d : Duration} (fits : (clock.advance d).total ≤ Duration.limit) :
    (clock.advance d).elapsed = clock.elapsed + d := by
  have before : clock.total ≤ Duration.limit := Nat.le_trans (Nat.le_add_right _ _) fits
  rw [elapsed_of_fits fits, elapsed_of_fits before]
  rfl

private theorem Scheduled.elapsed_due (scheduled : h.Scheduled)
    (fits : (h.clock.advance h.untilNext).total ≤ Duration.limit) :
    (h.clock.advance h.untilNext).elapsed =
      max h.clock.elapsed (h.produced * h.settings.period) := by
  rw [elapsed_advance fits, untilNext, scheduled.next, Nat.max_comm]
  exact (Nat.add_comm _ _).trans (Nat.sub_add_eq_max _ _)

private theorem Scheduled.nextDelivery_due (scheduled : h.Scheduled)
    (fits : (h.clock.advance h.untilNext).total ≤ Duration.limit) :
    h.nextDelivery.Due h.settings h.produced := by
  unfold nextDelivery
  rw [scheduled.deliver_eq]
  refine ⟨rfl, ?_, rfl, rfl⟩
  dsimp only
  rw [scheduled.elapsed_due fits]
  exact Nat.le_max_right _ _

private theorem Scheduled.reads (scheduled : h.Scheduled) (timeout : Duration)
    (fits : (h.read timeout).2.clock.total ≤ Duration.limit) :
    h.Reads h.produced timeout (h.read timeout) := by
  rcases h.read_cases timeout with ⟨ended, answer⟩ | ⟨ready, cases⟩
  · rw [answer]
    exact .ended ((exhausted_iff scheduled).mp ended)
  have more := (exhausted_eq_false_iff scheduled).mp ready
  rcases cases with ⟨early, answer⟩ | ⟨off, answer⟩ | ⟨on, answer⟩
  · rw [answer] at fits ⊢
    have waited := elapsed_advance fits
    refine .timedOut more waited ?_
    rw [waited, ← scheduled.next]
    exact Nat.add_lt_of_lt_sub' early
  · rw [answer] at fits ⊢
    exact .unlinked more off (scheduled.elapsed_due fits)
  · rw [answer] at fits ⊢
    rw [scheduled.deliver_eq] at fits ⊢
    exact .delivered more on rfl rfl (scheduled.elapsed_due fits)

/-! ## A whole run -/

private theorem total_le_after (events : List HeadEvent) (h : SimulatedHead α) :
    h.clock.total ≤ (h.after events).clock.total := by
  induction events generalizing h with
  | nil => exact Nat.le_refl _
  | cons e rest ih => exact Nat.le_trans (h.total_le_undergo e) (ih (h.undergo e))

private theorem Scheduled.after (events : List HeadEvent) (scheduled : h.Scheduled) :
    (h.after events).Scheduled := by
  induction events generalizing h with
  | nil => exact scheduled
  | cons e rest ih => exact ih (scheduled.undergo e)

private theorem after_settings (events : List HeadEvent) (scheduled : h.Scheduled) :
    (h.after events).settings = h.settings := by
  induction events generalizing h with
  | nil => rfl
  | cons e rest ih => exact (ih (scheduled.undergo e)).trans (undergo_settings scheduled e)

private theorem after_produced (events : List HeadEvent) (scheduled : h.Scheduled) :
    (h.after events).produced = h.produced + (h.deliveries events).length := by
  induction events generalizing h with
  | nil => rfl
  | cons e rest ih =>
    change ((h.undergo e).after rest).produced = _
    rw [ih (scheduled.undergo e), undergo_produced scheduled e, deliveries, List.length_append,
      Nat.add_assoc]

/-- Nothing but the heaters that are on at the deliveries tells which samples are delivered. -/
theorem deliveries_samples (events : List HeadEvent) (scheduled : h.Scheduled) :
    (h.deliveries events).map Delivery.sample =
      h.settings.samplesFrom h.produced h.temperature ((h.deliveries events).map Delivery.heaters) := by
  induction events generalizing h with
  | nil => rfl
  | cons e rest ih =>
    have others := ih (scheduled.undergo e)
    -- A delivery moves number and temperature on by one sample, and all else leaves both where they are.
    rcases undergo_cases scheduled e with ⟨none, holds⟩ | ⟨some, same, _⟩
    · rw [holds.settings, holds.produced, holds.temperature] at others
      simpa [deliveries, none] using others
    · rw [same, scheduled.deliver_eq] at others
      simp only [deliveries, some, same, nextDelivery, scheduled.deliver_eq, Option.toList_some,
        List.singleton_append, List.map_cons, SimulatorSettings.samplesFrom, List.cons.injEq, true_and]
      exact others

private theorem deliveries_due (events : List HeadEvent) (scheduled : h.Scheduled)
    (fits : (h.after events).clock.total ≤ Duration.limit) (k : Nat) (d : Delivery α)
    (delivered : (h.deliveries events)[k]? = some d) : d.Due h.settings (h.produced + k) := by
  induction events generalizing h k with
  | nil => simp [deliveries] at delivered
  | cons e rest ih =>
    have later := ih (scheduled.undergo e) fits
    rcases undergo_cases scheduled e with ⟨none, holds⟩ | ⟨some, same, _⟩
    · rw [holds.settings, holds.produced] at later
      exact later k (by simpa [deliveries, none] using delivered)
    · cases k with
      | zero =>
        simp only [deliveries, some, Option.toList_some, List.singleton_append,
          List.getElem?_cons_zero, Option.some.injEq] at delivered
        subst d
        -- The clock never goes back, so it has not run over by now.
        have soon : (h.undergo e).clock.total ≤ Duration.limit :=
          Nat.le_trans (total_le_after rest (h.undergo e)) fits
        rw [same, scheduled.deliver_eq] at soon
        exact scheduled.nextDelivery_due soon
      | succ k =>
        simp only [deliveries, some, Option.toList_some, List.singleton_append,
          List.getElem?_cons_succ] at delivered
        have due := later k delivered
        rw [same, scheduled.deliver_eq] at due
        have number : h.produced + (k + 1) = h.produced + 1 + k := by omega
        rwa [number]

/-- A run of a head from the start, with whatever is done in between. The samples are told by the heaters at
their deliveries and are numbered without a gap, none comes before it is due and none beyond the last one, and
every read comes to what the schedule says. -/
theorem head_keeps_pace (c : SimulatorSettings α) (events : List HeadEvent)
    (fits : ((start c).after events).clock.total ≤ Duration.limit) :
    ((start c).deliveries events).map Delivery.sample =
        c.samplesFrom 0 c.bias (((start c).deliveries events).map Delivery.heaters) ∧
      (∀ k (d : Delivery α), ((start c).deliveries events)[k]? = some d → d.Due c k) ∧
      (∀ m, c.maxSamples = some m → ((start c).deliveries events).length ≤ m) ∧
      ∀ before timeout rest, events = before ++ .read timeout :: rest →
        ((start c).after before).settings = c ∧
          ((start c).after before).Reads ((start c).deliveries before).length timeout
            (((start c).after before).read timeout) := by
  have scheduled := start_scheduled c
  refine ⟨deliveries_samples events scheduled, ?_, ?_, ?_⟩
  · intro k d delivered
    simpa [start] using deliveries_due events scheduled fits k d delivered
  · intro m limited
    have least := (scheduled.after events).limited m
    rw [after_settings events scheduled, after_produced events scheduled] at least
    simpa [start] using least limited
  · rintro before timeout rest rfl
    have settings := after_settings before scheduled
    have count := after_produced before scheduled
    have soon : (((start c).after before).read timeout).2.clock.total ≤ Duration.limit := by
      refine Nat.le_trans (total_le_after rest _) ?_
      simpa [after, undergo] using fits
    refine ⟨settings, ?_⟩
    have reads := (scheduled.after before).reads timeout soon
    rw [count] at reads
    simpa [start] using reads

def brief : SimulatorSettings Float := { period := 10, maxSamples := some 2 }

/-- The second sample is late: a read gives up before it is due, another one finds no link, and then time
passes before the next. -/
def interruptions : List HeadEvent := [
  .read 5, .command (Heaters.only 1), .read 5, .connect false, .read 100, .connect true, .pass 7, .read 0,
  .read 3]

theorem head_keeps_pace_interrupted :
    ((start brief).after interruptions).clock.total ≤ Duration.limit ∧
      ((start brief).deliveries interruptions).map Delivery.sample =
        brief.samplesFrom 0 brief.bias [Heaters.off, Heaters.only 1] ∧
      ((start brief).deliveries interruptions).map Delivery.time = [0, 17] ∧
      ((start brief).after (interruptions.take 2)).Reads 1 5
        (((start brief).after (interruptions.take 2)).read 5) := by
  have fits : ((start brief).after interruptions).clock.total ≤ Duration.limit := by decide
  obtain ⟨samples, _, _, reads⟩ := head_keeps_pace brief interruptions fits
  exact ⟨fits, samples, rfl, (reads (interruptions.take 2) 5 (interruptions.drop 3) rfl).2⟩

end SimulatedHead
end Calorimetry
