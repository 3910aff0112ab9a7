import Calorimetry.Proofs.Session.Register

/-! Rounds of notification in which callbacks do nothing. Every subscriber is then served once, with the
same snapshot, and what an operation announces can be told before it is done. -/

namespace Calorimetry
variable {α : Type}

namespace Action

/-- A callback that is subscribed never does anything. -/
def Quiet : Action α → Prop
  | .subscribeWith plan => ∀ actions ∈ plan, actions = []
  | _ => True

private theorem countPlan_quiet {plan : Plan α} (quiet : ∀ actions ∈ plan, actions = []) :
    countPlan plan = 0 := by
  induction plan with
  | nil => rfl
  | cons actions rest ih =>
    obtain ⟨first, others⟩ := List.forall_mem_cons.mp quiet
    rw [countPlan, first, ih others]
    rfl

private theorem Quiet.count {a : Action α} (quiet : a.Quiet) : a.count = 1 := by
  cases a with
  | subscribeWith plan => rw [Action.count, countPlan_quiet quiet]
  | _ => rfl

end Action

/-- The channel after an announcement, if anyone can still receive from it. -/
def Channel.tell (shown : Snapshot α) (c : Channel α) : Channel α :=
  if c.connected then c.offer shown else c

private theorem Channel.tell_connected (shown : Snapshot α) (c : Channel α) :
    (c.tell shown).connected = c.connected := by
  rw [tell]
  split
  · rw [offer]
    split
    · rfl
    · rfl
  · rfl

namespace Session
variable [Scalar α]

/-- What an operation announces. -/
def announces? (s : Session α) : Operation α → Option (Snapshot α)
  | .ingest x => if s.isShutdown then none else (s.meter.record x).toOption.map Meter.snapshot
  | _ => none

/-- A subscription to a channel from which nobody can receive. -/
def lost (s : Session α) (t : Subscription) : Bool := t.sink = .channel && !s.isConnected t.id

omit [Scalar α] in
private theorem countAll_eq_zero {actions : List (Action α)} (none : Action.countAll actions = 0) :
    actions = [] := by
  cases actions with
  | nil => rfl
  | cons a rest =>
    have := one_le_count a
    rw [Action.countAll] at none
    omega

private theorem attend_quiet (s : Session α) (quiet : s.pendingActions = 0) (shown : Snapshot α)
    (t : Subscription) :
    (s.attend shown t).2.1 = [] ∧ (s.attend shown t).1.pendingActions = 0 := by
  have fewer := attend_pendingActions s shown t
  exact ⟨countAll_eq_zero (by omega), by omega⟩

private theorem attend_channel? (s : Session α) (shown : Snapshot α) (t : Subscription) (id : Nat) :
    (s.attend shown t).1.channel? id =
      if t = ⟨id, .channel⟩ then (s.channel? id).map (Channel.tell shown) else s.channel? id := by
  obtain ⟨k, sink⟩ := t
  cases sink with
  | callback =>
    rw [if_neg (by simp)]
    rfl
  | channel =>
    have mine : (⟨k, .channel⟩ : Subscription) = ⟨id, .channel⟩ ↔ id = k := by simp [eq_comm]
    rw [attend]
    simp only [mine]
    split
    · next connected =>
      rw [enqueue, channel?_adjust]
      split
      · next same =>
        subst same
        refine Option.map_congr fun c found => ?_
        have heard : c.connected = true := by simpa [isConnected, found] using connected
        rw [Channel.tell, if_pos heard]
      · rfl
    · next alone =>
      split
      · next same =>
        subst same
        cases found : s.channel? id with
        | none => rfl
        | some c =>
          have unheard : ¬ c.connected = true := by simpa [isConnected, found] using alone
          rw [Option.map_some, Channel.tell, if_neg unheard]
      · rfl

private theorem attend_isConnected (s : Session α) (shown : Snapshot α) (t : Subscription) (id : Nat) :
    (s.attend shown t).1.isConnected id = s.isConnected id := by
  rw [isConnected, isConnected, attend_channel?]
  split
  · rw [Option.map_map]
    congr 1
    exact Option.map_congr fun c _ => Channel.tell_connected shown c
  · rfl

/-- What serving `targets` does to a session whose callbacks do nothing. -/
structure Serves (shown : Snapshot α) (targets : List Subscription) (s n : Session α) : Prop where
  calls : n.calls.toList = s.calls.toList ++
    (targets.filter (·.sink = .callback)).map fun t => (t.id, shown)
  channels : ∀ id, n.channel? id = if ⟨id, .channel⟩ ∈ targets then
    (s.channel? id).map (Channel.tell shown) else s.channel? id
  subscriptions : n.subscriptions = s.subscriptions

private theorem attend_serves (s : Session α) (shown : Snapshot α) (t : Subscription) :
    Serves shown [t] s (s.attend shown t).1 := by
  constructor
  · obtain ⟨id, sink⟩ := t
    cases sink with
    | callback => exact Queue.toList_push _ _
    | channel =>
      rw [attend]
      dsimp only
      split
      · exact (List.append_nil _).symm
      · exact (List.append_nil _).symm
  · intro id
    rw [attend_channel?]
    simp only [List.mem_singleton, eq_comm]
  · rw [attend]
    split
    · rfl
    · split
      · rfl
      · rfl

private theorem Serves.trans {shown : Snapshot α} {first others : List Subscription} {s m n : Session α}
    (serves : Serves shown first s m) (later : Serves shown others m n)
    (apart : ∀ t ∈ first, t ∉ others) : Serves shown (first ++ others) s n := by
  constructor
  · rw [later.calls, serves.calls, List.filter_append, List.map_append, List.append_assoc]
  · intro id
    rw [later.channels, serves.channels]
    by_cases mine : ⟨id, .channel⟩ ∈ first
    · simp [mine, apart _ mine]
    · simp [mine]
  · rw [later.subscriptions, serves.subscriptions]

private theorem attend_lost (s : Session α) (shown : Snapshot α) (t : Subscription) :
    (s.attend shown t).2.2 = if s.lost t then [t.id] else [] := by
  obtain ⟨id, sink⟩ := t
  rw [attend, lost]
  cases sink with
  | callback => rfl
  | channel =>
    dsimp only
    cases s.isConnected id with
    | false => rfl
    | true => rfl

private theorem serve_quiet (ingest : Session α → Sample α → Session α) (shown : Snapshot α)
    (targets : List Subscription) (s : Session α) (quiet : s.pendingActions = 0)
    (apart : targets.Pairwise (·.id < ·.id)) :
    Serves shown targets s (serve ingest shown targets s).1 ∧
      (serve ingest shown targets s).2 = (targets.filter s.lost).map (·.id) := by
  induction targets generalizing s with
  | nil => exact ⟨⟨(List.append_nil _).symm, fun id => by simp [serve], rfl⟩, rfl⟩
  | cons t waiting ih =>
    obtain ⟨before, later⟩ := List.pairwise_cons.mp apart
    obtain ⟨idle, still⟩ := attend_quiet s quiet shown t
    obtain ⟨served, gone⟩ := ih (s.attend shown t).1 still later
    have first := attend_serves s shown t
    have same : (s.attend shown t).1.lost = s.lost := by
      funext u
      rw [lost, lost, attend_isConnected]
    rw [serve_cons, idle]
    constructor
    · refine first.trans served ?_
      intro u member again
      rw [List.mem_singleton.mp member] at again
      exact Nat.lt_irrefl _ (before t again)
    · change (s.attend shown t).2.2 ++ (serve ingest shown waiting (s.attend shown t).1).2 = _
      rw [gone, same, attend_lost, List.filter_cons]
      split
      · rfl
      · rfl

structure Announces (shown : Snapshot α) (s n : Session α) : Prop where
  calls : n.calls.toList = s.calls.toList ++
    (s.subscriptions.filter (·.sink = .callback)).map fun t => (t.id, shown)
  channels : ∀ id, n.channel? id = if ⟨id, .channel⟩ ∈ s.subscriptions then
    (s.channel? id).map (Channel.tell shown) else s.channel? id
  subscriptions : n.subscriptions = s.subscriptions.filter fun t => !s.lost t

private theorem notify_quiet (ingest : Session α → Sample α → Session α) (shown : Snapshot α) (s : Session α)
    (quiet : s.pendingActions = 0) (increasing : s.subscriptions.Pairwise (·.id < ·.id)) :
    Announces shown s (notify ingest shown s) := by
  obtain ⟨served, gone⟩ := serve_quiet ingest shown s.subscriptions s quiet increasing
  refine ⟨served.calls, served.channels, ?_⟩
  change ((serve ingest shown s.subscriptions s).1.forget _).subscriptions = _
  rw [forget, served.subscriptions, gone]
  -- Those without a receiver are told by their numbers, which are unique.
  refine List.filter_congr fun t member => congrArg Bool.not ?_
  rw [Bool.eq_iff_iff, List.contains_iff_mem, List.mem_map]
  constructor
  · rintro ⟨u, gone, same⟩
    obtain ⟨subscribed, unheard⟩ := List.mem_filter.mp gone
    rwa [eq_of_id_eq increasing subscribed member same] at unheard
  · intro unheard
    exact ⟨t, List.mem_filter.mpr ⟨member, unheard⟩, rfl⟩

private theorem announces?_ingest_some {s : Session α} {x : Sample α} {shown : Snapshot α}
    (told : s.announces? (.ingest x) = some shown) :
    ∃ next, s.meter.record x = .ok next ∧ s.isShutdown = false ∧ next.snapshot = shown := by
  rw [announces?] at told
  split at told
  · cases told
  · next up =>
    cases recorded : s.meter.record x with
    | error e => simp [recorded, Except.toOption] at told
    | ok next =>
      rw [recorded] at told
      exact ⟨next, rfl, by simpa using up, Option.some.inj told⟩

private theorem ingest_announces (s : Session α) (x : Sample α) (shown : Snapshot α) (orderly : s.Orderly)
    (quiet : s.pendingActions = 0) (told : s.announces? (.ingest x) = some shown) :
    Announces shown s (s.ingest x) := by
  obtain ⟨next, recorded, up, rfl⟩ := announces?_ingest_some told
  cases subscribed : s.subscriptions with
  | nil =>
    have unheard : s.ingest x = { s with meter := next } := by
      rw [ingest, ingestWithin, take, recorded]
      simp [subscribed]
    rw [unheard]
    constructor
    · rw [subscribed]
      exact (List.append_nil _).symm
    · intro id
      rw [subscribed, if_neg List.not_mem_nil]
      rfl
    · rw [subscribed]
      rfl
  | cons t others =>
    have heard : s.ingest x =
        notify (ingestWithin s.pendingActions) next.snapshot { s with meter := next } := by
      rw [ingest, ingestWithin, take, recorded]
      simp [subscribed, up]
    have announces := notify_quiet (ingestWithin s.pendingActions) next.snapshot
      { s with meter := next } quiet orderly.increasing
    rw [heard]
    exact ⟨announces.calls, announces.channels, announces.subscriptions⟩

/-- An operation that announces nothing does at once all that it does. -/
theorem perform_silent (s : Session α) (op : Operation α) (single : ∀ xs, op ≠ .process xs)
    (silent : s.announces? op = none) : s.perform op = (s.undertake op).1 := by
  cases op with
  | ingest x =>
    change s.ingest x = (s.take x).1
    have unheard : (s.take x).2 = none := by
      rcases s.take_cases x with ⟨_, _, told⟩ | ⟨next, recorded, told⟩
      · rw [told]
      · rw [announces?, recorded] at silent
        rw [told]
        cases down : s.isShutdown with
        | true => rfl
        | false => simp [down, Except.toOption] at silent
    rw [ingest, ingestWithin]
    rcases told : s.take x with ⟨n, _ | shown⟩
    · rfl
    · rw [told] at unheard
      cases unheard
  | process xs => exact absurd rfl (single xs)
  | _ => rfl

theorem perform_announces (s : Session α) (op : Operation α) (shown : Snapshot α)
    (orderly : s.Orderly) (quiet : s.pendingActions = 0) (told : s.announces? op = some shown) :
    Announces shown s (s.perform op) := by
  cases op with
  | ingest x => exact ingest_announces s x shown orderly quiet told
  | _ => cases told

/-- No callback is going to do anything, and none was called under a number still to be given out. -/
structure AtRest (s : Session α) : Prop where
  orderly : s.Orderly
  quiet : s.pendingActions = 0
  called : ∀ call ∈ s.calls.toList, call.1 < s.issued

theorem atRest_start (m : Meter α) : AtRest { meter := m } where
  orderly := orderly_start m
  quiet := rfl
  called _ member := absurd member List.not_mem_nil

theorem AtRest.perform {s : Session α} (rest : s.AtRest) (op : Operation α) (quiet : op.Quiet)
    (single : ∀ xs, op ≠ .process xs) : (s.perform op).AtRest where
  orderly := operate_orderly s [op] rest.orderly
  quiet := by
    have fewer := ((ingest_stepwise _).act s op [] (Nat.lt_succ_self _)).2
    rw [quiet.count, rest.quiet] at fewer
    exact Nat.le_zero.mp (Nat.le_of_succ_le_succ fewer)
  called := by
    have more := operate_issued_le s [op]
    cases told : s.announces? op with
    | none =>
      rw [perform_silent s op single told, undertake_calls, ← perform_silent s op single told]
      exact fun call member => Nat.lt_of_lt_of_le (rest.called call member) more
    | some shown =>
      rw [(perform_announces s op shown rest.orderly rest.quiet told).calls]
      intro call member
      rcases List.mem_append.mp member with before | new
      · exact Nat.lt_of_lt_of_le (rest.called call before) more
      · obtain ⟨t, heard, rfl⟩ := List.mem_map.mp new
        exact Nat.lt_of_lt_of_le (rest.orderly.used t (List.mem_filter.mp heard).1) more

end Session
end Calorimetry
