import Calorimetry.Proofs.Session.Moments
import Mathlib.Data.List.Nodup

/-! Numbers of subscriptions. Each is given out once, so the subscriptions of a session stand in the
order of their numbers at each moment, and a number whose subscription has ended never comes back. -/

namespace Calorimetry
variable {α : Type}

namespace Action

def unsubscribes (id : Nat) : Action α → Bool
  | .unsubscribe k => k = id
  | _ => false

theorem eq_of_unsubscribes {id : Nat} {a : Action α} (ended : a.unsubscribes id = true) :
    a = .unsubscribe id := by
  cases a with
  | unsubscribe k => rw [of_decide_eq_true ended]
  | _ => cases ended

end Action

namespace Session
variable [Scalar α]

/-- What a step does to the register: some subscriptions end, or one joins under the next number, and a
channel has its entry from then on. -/
inductive Registers (s n : Session α) : Prop
  | leaves (issued : n.issued = s.issued) (left : n.subscriptions.Sublist s.subscriptions)
      (keys : n.channels.map Prod.fst = s.channels.map Prod.fst)
  | joins (sink : Sink) (issued : n.issued = s.issued + 1)
      (joined : n.subscriptions = s.subscriptions ++ [⟨s.issued, sink⟩])
      (keys : ∀ k ∈ n.channels.map Prod.fst, k ∈ s.channels.map Prod.fst ∨ k = s.issued)

private theorem Registers.refl (s : Session α) : Registers s s := .leaves rfl (.refl _) rfl

theorem undertake_registers (s : Session α) (a : Action α) : Registers s (s.undertake a).1 := by
  cases a with
  | ingest x =>
    obtain ⟨_, _, same⟩ := s.take_measures x
    rw [undertake, same]
    exact .leaves rfl (.refl _) rfl
  | setTable points =>
    obtain ⟨_, same⟩ := s.setTable_measures points
    rw [undertake_setTable, same]
    exact .leaves rfl (.refl _) rfl
  | subscribeWith plan => exact .joins .callback rfl rfl fun _ known => .inl known
  | subscribeChannel capacity =>
    have keys : (s.subscribeChannel capacity).channels.map Prod.fst =
        s.channels.map Prod.fst ++ [s.issued] := List.map_append
    refine .joins .channel rfl rfl fun k member => ?_
    change k ∈ (s.subscribeChannel capacity).channels.map Prod.fst at member
    rwa [keys, List.mem_append, List.mem_singleton] at member
  | unsubscribe id => exact .leaves rfl List.filter_sublist rfl
  | receive id n => exact .leaves rfl (.refl _) (adjust_keys id (Channel.drain n) _)
  | dropReceiver id => exact .leaves rfl (.refl _) (adjust_keys id Channel.cut _)
  | _ => exact .leaves rfl (.refl _) rfl

private theorem attend_registers (s : Session α) (shown : Snapshot α) (t : Subscription) :
    Registers s (s.attend shown t).1 := by
  rw [attend]
  split
  · exact .leaves rfl (.refl _) rfl
  · split
    · exact .leaves rfl (.refl _) (adjust_keys t.id (Channel.offer shown) _)
    · exact .refl s

theorem next_registers {m n : Moment α} {e : Event α} (first : m.next? = some (e, n)) :
    Registers m.session n.session := by
  rcases Moment.next?_cases first with ⟨a, _, _, _, same, _⟩ | ⟨shown, t, _, _, _, _, _, same, _⟩ |
    ⟨_, gone, _, _, _, same, _⟩
  · rw [same]
    exact undertake_registers m.session a
  · rw [same]
    exact attend_registers m.session shown t
  · rw [same]
    exact .leaves rfl List.filter_sublist rfl

/-- Subscriptions stand in the order of their numbers, and no number has been used that is still to be
given out. -/
structure Orderly (s : Session α) : Prop where
  increasing : s.subscriptions.Pairwise fun t u => t.id < u.id
  used : ∀ t ∈ s.subscriptions, t.id < s.issued
  keys_used : ∀ k ∈ s.channels.map Prod.fst, k < s.issued

theorem eq_of_id_eq {subscriptions : List Subscription} {t u : Subscription}
    (increasing : subscriptions.Pairwise fun t u => t.id < u.id) (first : t ∈ subscriptions)
    (second : u ∈ subscriptions) (same : t.id = u.id) : t = u := by
  have distinct : (subscriptions.map (·.id)).Nodup :=
    List.pairwise_map.mpr (increasing.imp Nat.ne_of_lt)
  exact List.inj_on_of_nodup_map distinct first second same

theorem orderly_start (m : Meter α) : Orderly { meter := m } where
  increasing := .nil
  used _ member := absurd member List.not_mem_nil
  keys_used _ member := absurd member List.not_mem_nil

private theorem Registers.orderly {s n : Session α} (registers : Registers s n) (orderly : s.Orderly) :
    n.Orderly := by
  cases registers with
  | leaves issued left keys =>
    constructor
    · exact orderly.increasing.sublist left
    · intro t member
      rw [issued]
      exact orderly.used t (left.subset member)
    · rw [issued, keys]
      exact orderly.keys_used
  | joins sink issued joined keys =>
    constructor
    · rw [joined, List.pairwise_append]
      refine ⟨orderly.increasing, List.pairwise_singleton _ _, ?_⟩
      intro t earlier u last
      rw [List.mem_singleton.mp last]
      exact orderly.used t earlier
    · intro t member
      rw [joined, List.mem_append, List.mem_singleton] at member
      rw [issued]
      rcases member with earlier | rfl
      · exact Nat.lt_succ_of_lt (orderly.used t earlier)
      · exact Nat.lt_succ_self _
    · intro k member
      rw [issued]
      rcases keys k member with known | rfl
      · exact Nat.lt_succ_of_lt (orderly.keys_used k known)
      · exact Nat.lt_succ_self _

theorem Moment.Passes.orderly {m n : Moment α} {trace : List (Event α)} (passes : m.Passes trace n)
    (orderly : m.session.Orderly) : n.session.Orderly :=
  passes.keeps Orderly orderly fun _ _ _ _ first => (next_registers first).orderly

theorem operate_orderly (s : Session α) (ops : List (Operation α)) (orderly : s.Orderly) :
    (s.operate ops).Orderly := by
  obtain ⟨_, passes⟩ := operate_reached s ops
  exact passes.orderly orderly

private theorem Registers.issued_le {s n : Session α} (registers : Registers s n) : s.issued ≤ n.issued := by
  cases registers <;> omega

theorem operate_issued_le (s : Session α) (ops : List (Operation α)) :
    s.issued ≤ (s.operate ops).issued := by
  obtain ⟨_, passes⟩ := operate_reached s ops
  refine passes.keeps (fun n => s.issued ≤ n.issued) (Nat.le_refl _) ?_
  intro _ _ _ _ first before
  exact Nat.le_trans before (next_registers first).issued_le

/-- The number has been given out, and no subscription has it any more. -/
def Retired (id : Nat) (s : Session α) : Prop := id < s.issued ∧ ∀ t ∈ s.subscriptions, t.id ≠ id

theorem Registers.retired {s n : Session α} {id : Nat} (registers : Registers s n)
    (retired : s.Retired id) : n.Retired id := by
  obtain ⟨used, absent⟩ := retired
  cases registers with
  | leaves issued left keys => exact ⟨by omega, fun t member => absent t (left.subset member)⟩
  | joins sink issued joined keys =>
    refine ⟨by omega, fun t member => ?_⟩
    rw [joined, List.mem_append, List.mem_singleton] at member
    rcases member with earlier | rfl
    · exact absent t earlier
    · exact Nat.ne_of_gt used

theorem Orderly.retired {s : Session α} {id : Nat} (orderly : s.Orderly)
    (subscribed : s.isSubscribed id = true) : (s.unsubscribe id).Retired id := by
  rw [isSubscribed, List.any_eq_true] at subscribed
  obtain ⟨t, member, same⟩ := subscribed
  refine ⟨?_, ?_⟩
  · rw [← of_decide_eq_true same]
    exact orderly.used t member
  · intro u kept
    simpa using (List.mem_filter.mp kept).2

theorem undertake_mem (s : Session α) (a : Action α) {t : Subscription} (member : t ∈ s.subscriptions)
    (stays : a.unsubscribes t.id = false) : t ∈ (s.undertake a).1.subscriptions := by
  cases a with
  | ingest x =>
    rw [undertake, take_subscriptions]
    exact member
  | setTable points =>
    obtain ⟨_, same⟩ := s.setTable_measures points
    rw [undertake_setTable, same]
    exact member
  | subscribeWith plan => exact List.mem_append_left _ member
  | subscribeChannel capacity => exact List.mem_append_left _ member
  | unsubscribe id =>
    refine List.mem_filter.mpr ⟨member, ?_⟩
    exact decide_eq_true (Ne.symm (of_decide_eq_false stays))
  | _ => exact member

theorem operate_retired {s : Session α} {id : Nat} (retired : s.Retired id)
    (ops : List (Operation α)) : (s.operate ops).Retired id := by
  obtain ⟨_, passes⟩ := operate_reached s ops
  exact passes.keeps (Retired id) retired fun _ _ _ _ first => (next_registers first).retired

theorem Retired.not_mem {s : Session α} {id : Nat} (retired : s.Retired id) (sink : Sink) :
    ⟨id, sink⟩ ∉ s.subscriptions := fun member => retired.2 _ member rfl

theorem Retired.isSubscribed {s : Session α} {id : Nat} (retired : s.Retired id) :
    s.isSubscribed id = false := by
  rw [Session.isSubscribed, List.any_eq_false]
  intro t member
  simpa using retired.2 t member

theorem isSubscribed_of_mem {s : Session α} {t : Subscription} (member : t ∈ s.subscriptions) :
    s.isSubscribed t.id = true := List.any_eq_true.mpr ⟨t, member, decide_eq_true rfl⟩

end Session
end Calorimetry
