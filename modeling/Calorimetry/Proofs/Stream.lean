import Calorimetry.Proofs.Tracking.Consistency
import Calorimetry.Proofs.Window.History
import Mathlib.Data.List.Induction

/-! Streams of samples into a session whose callbacks may do things, but nothing to the measurement.
This then takes in one sample after another, and the samples in its window are the newest of those
accepted. As long as nothing has left the window, a property is kept by a stream if it is kept by a
sample that comes in while nothing leaves. -/

namespace Calorimetry
variable {α : Type} [Scalar α]

/-- The measurement after a sample that may have been refused. -/
def Meter.feed (m : Meter α) (x : Sample α) : Meter α := (m.record x).toOption.getD m

/-- The action does nothing to the measurement, and nor does the callback that it may subscribe. -/
inductive Action.Harmless : Action α → Prop
  | reset : Harmless .reset
  | shutdown : Harmless .shutdown
  | subscribeWith (plan : Plan α) (harmless : ∀ actions ∈ plan, ∀ a ∈ actions, Harmless a) :
      Harmless (.subscribeWith plan)
  | subscribeChannel (capacity : Nat) : Harmless (.subscribeChannel capacity)
  | unsubscribe (id : Nat) : Harmless (.unsubscribe id)
  | receive (id n : Nat) : Harmless (.receive id n)
  | dropReceiver (id : Nat) : Harmless (.dropReceiver id)

namespace Session

def HarmlessPlans (plans : List (Nat × Plan α)) : Prop :=
  ∀ entry ∈ plans, ∀ actions ∈ entry.2, ∀ a ∈ actions, a.Harmless

/-- No callback is going to do anything to the measurement. -/
def Passive (s : Session α) : Prop := HarmlessPlans s.plans

omit [Scalar α] in
private theorem adjust_harmless {plans : List (Nat × Plan α)} (harmless : HarmlessPlans plans) (id : Nat) :
    HarmlessPlans (adjust id List.tail plans) := by
  intro entry member actions planned
  obtain ⟨⟨k, plan⟩, present, rfl⟩ := List.mem_map.mp member
  dsimp only at planned
  split at planned
  · exact harmless (k, plan) present actions (List.mem_of_mem_tail planned)
  · exact harmless (k, plan) present actions planned

omit [Scalar α] in
private theorem next_harmless {plans : List (Nat × Plan α)} (harmless : HarmlessPlans plans) (id : Nat) :
    ∀ a ∈ (((plans.find? (·.1 = id)).map Prod.snd).bind List.head?).getD [], a.Harmless := by
  cases found : plans.find? (·.1 = id) with
  | none => simp
  | some entry =>
    cases planned : entry.2.head? with
    | none => simp [planned]
    | some actions =>
      have first := harmless entry (List.mem_of_find?_eq_some found) actions
        (List.mem_of_head? planned)
      simpa [planned] using first

/-- `n` has the measurement of `s` and no more refused samples counted, and its callbacks are not going to
do anything to the measurement. -/
structure Rests (s n : Session α) : Prop where
  meter : n.meter = s.meter
  anomalies : n.anomalies = s.anomalies
  passive : n.Passive

private theorem Rests.refl {s : Session α} (passive : s.Passive) : Rests s s := ⟨rfl, rfl, passive⟩

private theorem Rests.trans {s m n : Session α} (rests : Rests s m) (later : Rests m n) : Rests s n :=
  ⟨later.meter.trans rests.meter, later.anomalies.trans rests.anomalies, later.passive⟩

theorem act_rests (ingest : Session α → Sample α → Session α) (s : Session α) (a : Action α)
    (harmless : a.Harmless) (passive : s.Passive) : Rests s (act ingest s a) := by
  cases harmless with
  | subscribeWith plan harmless =>
    refine ⟨rfl, rfl, ?_⟩
    intro entry member actions planned
    rcases List.mem_append.mp member with before | added
    · exact passive entry before actions planned
    · rw [List.mem_singleton.mp added] at planned
      exact harmless actions planned
  | reset => exact ⟨rfl, rfl, passive⟩
  | shutdown => exact ⟨rfl, rfl, passive⟩
  | subscribeChannel capacity => exact ⟨rfl, rfl, passive⟩
  | unsubscribe id => exact ⟨rfl, rfl, passive⟩
  | receive id n => exact ⟨rfl, rfl, passive⟩
  | dropReceiver id => exact ⟨rfl, rfl, passive⟩

private theorem act_all_rests (ingest : Session α → Sample α → Session α) (actions : List (Action α))
    (s : Session α) (harmless : ∀ a ∈ actions, a.Harmless) (passive : s.Passive) :
    Rests s (actions.foldl (act ingest) s) := by
  induction actions generalizing s with
  | nil => exact .refl passive
  | cons a rest ih =>
    obtain ⟨first, others⟩ := List.forall_mem_cons.mp harmless
    have acted := act_rests ingest s a first passive
    exact acted.trans (ih _ others acted.passive)

private theorem callBack_rests (ingest : Session α → Sample α → Session α) (shown : Snapshot α) (id : Nat)
    (s : Session α) (passive : s.Passive) : Rests s (callBack ingest shown id s) := by
  have noted : Rests s (s.noteCall shown id) := ⟨rfl, rfl, adjust_harmless passive id⟩
  exact noted.trans
    (act_all_rests ingest (s.nextActions id) _ (next_harmless passive id) noted.passive)

private theorem serve_rests (ingest : Session α → Sample α → Session α) (shown : Snapshot α)
    (targets : List Subscription) (s : Session α) (passive : s.Passive) :
    Rests s (serve ingest shown targets s).1 := by
  induction targets generalizing s with
  | nil => exact .refl passive
  | cons t rest ih =>
    rw [serve]
    split
    · have called := callBack_rests ingest shown t.id s passive
      exact called.trans (ih _ called.passive)
    · split
      · have offered : Rests s (enqueue shown t.id s) := ⟨rfl, rfl, passive⟩
        exact offered.trans (ih _ offered.passive)
      · exact ih s passive

private theorem take_passive (s : Session α) (x : Sample α) (passive : s.Passive) :
    (s.take x).1.meter = s.meter.feed x ∧ (s.take x).1.Passive := by
  rw [take, Meter.feed]
  cases s.meter.record x with
  | error e => exact ⟨rfl, passive⟩
  | ok next => exact ⟨rfl, passive⟩

theorem setTable_passive (s : Session α) (points : List (Point α)) (passive : s.Passive) :
    ((s.setTable points).toOption.getD s).Passive := by
  obtain ⟨_, same⟩ := s.setTable_measures points
  rw [same]
  exact passive

/-- Nothing but the sample reaches the measurement. -/
theorem ingest_rests (s : Session α) (x : Sample α) (passive : s.Passive) :
    Rests (s.take x).1 (s.ingest x) := by
  have taken := (take_passive s x passive).2
  rw [ingest, ingestWithin]
  rcases told : s.take x with ⟨n, _ | shown⟩
  · rw [told] at taken
    exact .refl taken
  · rw [told] at taken
    have served := serve_rests (ingestWithin s.pendingActions) shown n.subscriptions n taken
    exact ⟨served.meter, served.anomalies, served.passive⟩

theorem ingest_passive (s : Session α) (x : Sample α) (passive : s.Passive) :
    (s.ingest x).meter = s.meter.feed x ∧ (s.ingest x).Passive := by
  have rests := ingest_rests s x passive
  exact ⟨rests.meter.trans (take_passive s x passive).1, rests.passive⟩

theorem ingest_all_passive (xs : List (Sample α)) (s : Session α) (passive : s.Passive) :
    (xs.foldl ingest s).meter = xs.foldl Meter.feed s.meter := by
  induction xs generalizing s with
  | nil => rfl
  | cons x rest ih =>
    obtain ⟨fed, still⟩ := ingest_passive s x passive
    rw [List.foldl_cons, List.foldl_cons, ← fed]
    exact ih _ still

end Session

namespace Meter
variable {m : Meter α} {c : MeterSettings α}

/-- The window has the newest of the samples `taken`, and at least one if there is one. -/
structure Took (m : Meter α) (taken : List (Sample α)) : Prop where
  samples : m.window.samples <:+ taken
  newest : m.window.newest? = taken.getLast?

theorem record_ok_iff (m : Meter α) (taken : List (Sample α)) (x : Sample α) (took : m.Took taken) :
    (∃ next, m.record x = .ok next) ↔ Sample.canFollow taken x = true := by
  rw [Sample.canFollow_iff, ← took.newest, ← m.window.anomaly?_eq_none_iff x, record, Window.push]
  cases m.window.anomaly? x with
  | none => simp [Except.map]
  | some e => simp [Except.map]

theorem Took.entered {next : Meter α} {x : Sample α} {n : Nat} {taken : List (Sample α)}
    (took : m.Took taken) (entered : m.window.Entered next.window x n) :
    next.Took (taken ++ [x]) where
  samples := by
    rw [entered.samples]
    exact (List.drop_suffix _ _).trans (List.suffix_append_self_iff.mpr took.samples)
  newest := by
    rw [Window.newest?_eq, entered.samples, List.getLast?_drop, List.getLast?_append,
      List.getLast?_append, if_neg]
    · rfl
    · have := entered.bound
      rw [List.length_append, List.length_singleton]
      omega

private theorem Took.complete {next : Meter α} {x : Sample α} {n : Nat} {taken : List (Sample α)}
    (took : m.Took taken) (entered : m.window.Entered next.window x n)
    (complete : next.window.samples = taken ++ [x]) : n = 0 ∧ m.window.samples = taken := by
  have size := congrArg List.length (entered.samples.symm.trans complete)
  have bound := entered.bound
  have fewer := took.samples.length_le
  simp only [List.length_drop, List.length_append, List.length_singleton] at size
  exact ⟨by omega, took.samples.eq_of_length (by omega)⟩

theorem start_took (c : MeterSettings α) (t : Table α) : (start c t).Took [] where
  samples := List.suffix_refl []
  newest := rfl

/-- A refused sample changes nothing, and an accepted one counts among those taken. -/
theorem feed_cases {taken : List (Sample α)} (took : m.Took taken) (x : Sample α) :
    (m.feed x = m ∧ Sample.canFollow taken x = false) ∨
      (m.record x = .ok (m.feed x) ∧ Sample.canFollow taken x = true) := by
  have judged := m.record_ok_iff taken x took
  cases recorded : m.record x with
  | error e =>
    left
    rw [feed, recorded]
    refine ⟨rfl, ?_⟩
    apply Bool.eq_false_iff.mpr
    rw [ne_eq, ← judged, recorded]
    rintro ⟨next, impossible⟩
    contradiction
  | ok next =>
    right
    rw [feed, recorded]
    exact ⟨rfl, judged.mp ⟨next, recorded⟩⟩

theorem feed_all_took (positive : 0 < c.span) (t : Table α) (xs : List (Sample α)) :
    (xs.foldl feed (start c t)).Consistent c ∧
      (xs.foldl feed (start c t)).Took (Sample.accepted xs) := by
  induction xs using List.reverseRecOn with
  | nil => exact ⟨start_consistent c t, start_took c t⟩
  | append_singleton xs x ih =>
    obtain ⟨consistent, took⟩ := ih
    rw [List.foldl_concat, Sample.accepted_concat]
    rcases feed_cases took x with ⟨same, refused⟩ | ⟨recorded, follows⟩
    · rw [same, if_neg (by simp [refused])]
      exact ⟨consistent, took⟩
    · rw [if_pos follows]
      obtain ⟨n, entered, _⟩ := record_entered consistent positive recorded
      exact ⟨record_consistent consistent positive recorded, took.entered entered⟩

/-- While a stream comes in and nothing leaves, what a new measurement has and an accepted sample
keeps stays so. -/
theorem feed_all_keeps {holds : Meter α → Prop} (positive : 0 < c.span) (t : Table α)
    (initial : holds (start c t))
    (step : ∀ m next x, m.Consistent c → m.record x = .ok next →
      m.window.Entered next.window x 0 → holds m → holds next)
    (xs : List (Sample α))
    (complete : (xs.foldl feed (start c t)).window.samples = Sample.accepted xs) :
    holds (xs.foldl feed (start c t)) := by
  -- What has left never comes back, so if the recording is complete it was so before its last sample.
  induction xs using List.reverseRecOn with
  | nil => exact initial
  | append_singleton xs x ih =>
    obtain ⟨consistent, took⟩ := feed_all_took positive t xs
    rw [List.foldl_concat] at complete ⊢
    rw [Sample.accepted_concat] at complete
    rcases feed_cases took x with ⟨same, refused⟩ | ⟨recorded, follows⟩
    · rw [same, if_neg (by simp [refused])] at complete
      rw [same]
      exact ih complete
    · rw [if_pos follows] at complete
      obtain ⟨n, entered, _⟩ := record_entered consistent positive recorded
      obtain ⟨rfl, before⟩ := took.complete entered complete
      exact step _ _ x consistent recorded entered (ih before)

end Meter
end Calorimetry
