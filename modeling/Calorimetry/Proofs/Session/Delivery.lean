import Calorimetry.Proofs.Session.Quiet

/-! What subscribers get while callbacks only look at what they are shown. Each gets the same
announcements, whoever else there is. A callback gets all of them, and a channel those that it has room
for when they are made; it loses its subscription to one that finds nobody to receive. -/

namespace Calorimetry
variable {α : Type}

namespace Session
variable [Scalar α]

def callsTo (s : Session α) (id : Nat) : List (Snapshot α) :=
  (s.calls.toList.filter (·.1 = id)).map Prod.snd

/-- Operations in their order, each with what it announces. -/
def told (s : Session α) : List (Operation α) → List (Operation α × Option (Snapshot α))
  | [] => []
  | op :: later => (op, s.announces? op) :: told (s.perform op) later

omit [Scalar α] in
private theorem callbacks_of_id {subscriptions : List Subscription}
    (increasing : subscriptions.Pairwise fun t u => t.id < u.id) (shown : Snapshot α) (id : Nat) :
    (((subscriptions.filter (·.sink = .callback)).map fun t => (t.id, shown)).filter
        (·.1 = id)).map Prod.snd =
      if ⟨id, .callback⟩ ∈ subscriptions then [shown] else [] := by
  induction subscriptions with
  | nil => rfl
  | cons t rest ih =>
    obtain ⟨before, later⟩ := List.pairwise_cons.mp increasing
    have others := ih later
    by_cases mine : t = ⟨id, .callback⟩
    · have absent : ⟨id, .callback⟩ ∉ rest := by
        intro again
        exact Nat.lt_irrefl id (by simpa [mine] using before _ again)
      rw [if_neg absent] at others
      simpa [mine] using others
    · obtain ⟨k, sink⟩ := t
      cases sink with
      | channel => simpa using others
      | callback =>
        have other : k ≠ id := by
          rintro rfl
          exact mine rfl
        simpa [other, other.symm] using others

private theorem perform_callsTo {s : Session α} (rest : s.AtRest) (op : Operation α)
    (single : ∀ xs, op ≠ .process xs) (id : Nat) :
    (s.perform op).callsTo id = s.callsTo id ++
      if ⟨id, .callback⟩ ∈ s.subscriptions then (s.announces? op).toList else [] := by
  cases told : s.announces? op with
  | none =>
    rw [perform_silent s op single told, callsTo, undertake_calls, Option.toList_none, ite_self,
      List.append_nil, callsTo]
  | some shown =>
    have announces := perform_announces s op shown rest.orderly rest.quiet told
    rw [callsTo, announces.calls, List.filter_append, List.map_append,
      callbacks_of_id rest.orderly.increasing]
    rfl

private theorem perform_mem {s : Session α} (rest : s.AtRest) (op : Operation α)
    (single : ∀ xs, op ≠ .process xs) {t : Subscription} (member : t ∈ s.subscriptions)
    (stays : op.unsubscribes t.id = false) (heard : s.lost t = false) :
    t ∈ (s.perform op).subscriptions := by
  cases told : s.announces? op with
  | none =>
    rw [perform_silent s op single told]
    exact undertake_mem s op member stays
  | some shown =>
    rw [(perform_announces s op shown rest.orderly rest.quiet told).subscriptions]
    exact List.mem_filter.mpr ⟨member, by rw [heard]; rfl⟩

/-- The operation is a single one, and subscribes no callback that does anything. -/
def Plain (op : Operation α) : Prop := op.Quiet ∧ ∀ xs, op ≠ .process xs

private theorem callsTo_of_retired {s : Session α} {id : Nat} (rest : s.AtRest) (retired : s.Retired id)
    (ops : List (Operation α)) (plain : ∀ op ∈ ops, Plain op) :
    (s.operate ops).callsTo id = s.callsTo id := by
  induction ops generalizing s with
  | nil => rfl
  | cons op later ih =>
    obtain ⟨⟨quiet, single⟩, others⟩ := List.forall_mem_cons.mp plain
    rw [operate_cons, ih (rest.perform op quiet single) (operate_retired retired [op]) others,
      perform_callsTo rest op single, if_neg (retired.not_mem .callback), List.append_nil]

private theorem callsTo_of_subscribed {s : Session α} {id : Nat} (rest : s.AtRest)
    (member : ⟨id, .callback⟩ ∈ s.subscriptions) (ops : List (Operation α))
    (plain : ∀ op ∈ ops, Plain op) :
    (s.operate ops).callsTo id =
        s.callsTo id ++ ((s.told ops).takeWhile (!·.1.unsubscribes id)).filterMap Prod.snd ∧
      (s.operate ops).isSubscribed id = !ops.any (·.unsubscribes id) := by
  induction ops generalizing s with
  | nil => exact ⟨(List.append_nil _).symm, isSubscribed_of_mem member⟩
  | cons op later ih =>
    obtain ⟨⟨quiet, single⟩, others⟩ := List.forall_mem_cons.mp plain
    have next := rest.perform op quiet single
    have calls := perform_callsTo rest op single id
    rw [if_pos member] at calls
    rw [operate_cons, told, List.any_cons]
    cases ended : op.unsubscribes id with
    | false =>
      have still := perform_mem rest op single member ended rfl
      obtain ⟨called, subscribed⟩ := ih next still others
      refine ⟨?_, by rw [subscribed, Bool.false_or]⟩
      rw [called, calls, List.takeWhile_cons_of_pos (by simp [ended]), List.append_assoc]
      cases s.announces? op with
      | none => rfl
      | some shown => rfl
    | true =>
      obtain rfl := Action.eq_of_unsubscribes ended
      -- From here on nobody has the number.
      have retired : (s.perform (.unsubscribe id)).Retired id :=
        rest.orderly.retired (isSubscribed_of_mem member)
      rw [callsTo_of_retired next retired later others, calls, (operate_retired retired _).isSubscribed,
        List.takeWhile_cons_of_neg (by simp [ended])]
      exact ⟨rfl, rfl⟩

end Session

/-- What the owner of a channel knows of it. -/
structure Inbox (α : Type) where
  unread : List (Snapshot α) := []
  connected : Bool := true
  subscribed : Bool := true

namespace Inbox

/-- The inbox after an announcement. It loses what it has no room for, and its subscription if nobody
can receive any more. -/
def offer (capacity : Nat) (b : Inbox α) (shown : Snapshot α) : Inbox α :=
  if !b.subscribed then b
  else if !b.connected then { b with subscribed := false }
  else if b.unread.length < max 1 capacity then { b with unread := b.unread ++ [shown] }
  else b

/-- The inbox of channel `id` after an operation that announced `told`. -/
def step (capacity id : Nat) (b : Inbox α) : Session.Operation α × Option (Snapshot α) → Inbox α
  | (.unsubscribe k, _) => if k = id then { b with subscribed := false } else b
  | (.receive k n, _) => if k = id then { b with unread := b.unread.drop n } else b
  | (.dropReceiver k, _) => if k = id then { b with unread := [], connected := false } else b
  | (_, told) => told.elim b (b.offer capacity)

structure Of (capacity : Nat) (b : Inbox α) (c : Channel α) : Prop where
  capacity : c.capacity = max 1 capacity
  unread : c.queue.toList = b.unread
  connected : c.connected = b.connected

/-- The inbox is that of subscription `id`. -/
structure Mirrors [Scalar α] (capacity id : Nat) (b : Inbox α) (s : Session α) : Prop where
  channel : ∃ c, s.channel? id = some c ∧ b.Of capacity c
  subscribed : b.subscribed = true → ⟨id, .channel⟩ ∈ s.subscriptions
  ended : b.subscribed = false → s.Retired id

variable [Scalar α] {capacity id : Nat} {b : Inbox α} {s n : Session α} {shown : Snapshot α}

open Session

omit [Scalar α] in
private theorem Of.tell {c : Channel α} (same : b.Of capacity c) (subscribed : b.subscribed = true) :
    (b.offer capacity shown).Of capacity (c.tell shown) := by
  rw [offer, Channel.tell, same.connected, subscribed]
  cases connected : b.connected with
  | false => exact ⟨same.capacity, same.unread, same.connected.trans connected⟩
  | true =>
    simp only [Bool.not_true, Bool.false_eq_true, if_false, if_true]
    rw [Channel.offer, same.capacity, ← c.queue.length_toList, same.unread]
    split
    · exact ⟨rfl, by rw [Queue.toList_push, same.unread], same.connected.trans connected⟩
    · exact same

omit [Scalar α] in
private theorem offer_subscribed (subscribed : b.subscribed = true) :
    (b.offer capacity shown).subscribed = b.connected := by
  rw [offer, subscribed]
  cases b.connected with
  | false => rfl
  | true =>
    simp only [Bool.not_true, Bool.false_eq_true, if_false]
    split
    · rfl
    · exact subscribed

private theorem Mirrors.announces (mirrors : b.Mirrors capacity id s) (rest : s.AtRest)
    (grows : s.issued ≤ n.issued) (announces : Announces shown s n) :
    (b.offer capacity shown).Mirrors capacity id n := by
  obtain ⟨c, found, same⟩ := mirrors.channel
  have channel := announces.channels id
  rw [found] at channel
  have kept {t : Subscription} : t ∈ n.subscriptions ↔ t ∈ s.subscriptions ∧ s.lost t = false := by
    rw [announces.subscriptions, List.mem_filter, Bool.not_eq_true']
  cases subscribed : b.subscribed with
  | false =>
    obtain ⟨used, absent⟩ := mirrors.ended subscribed
    rw [if_neg fun member => absent _ member rfl] at channel
    have unheard : b.offer capacity shown = b := by simp [offer, subscribed]
    rw [unheard]
    refine ⟨⟨c, channel, same⟩, fun again => ?_, fun _ => ?_⟩
    · rw [subscribed] at again
      cases again
    · exact ⟨Nat.lt_of_lt_of_le used grows, fun t member => absent t (kept.mp member).1⟩
  | true =>
    have member := mirrors.subscribed subscribed
    have lost : s.lost ⟨id, .channel⟩ = !b.connected := by
      rw [Session.lost, isConnected, found, ← same.connected]
      rfl
    rw [if_pos member, Option.map_some] at channel
    refine ⟨⟨_, channel, same.tell subscribed⟩, fun still => ?_, fun past => ?_⟩
    · rw [offer_subscribed subscribed] at still
      exact kept.mpr ⟨member, by rw [lost, still]; rfl⟩
    · rw [offer_subscribed subscribed] at past
      refine ⟨Nat.lt_of_lt_of_le (rest.orderly.used _ member) grows, ?_⟩
      rintro t remains rfl
      obtain ⟨there, heard⟩ := kept.mp remains
      rw [eq_of_id_eq rest.orderly.increasing there member rfl, lost, past] at heard
      cases heard

private theorem Mirrors.undertakes {b' : Inbox α} (mirrors : b.Mirrors capacity id s) (a : Action α)
    (stays : a.unsubscribes id = false) (same : b'.subscribed = b.subscribed)
    (channel : ∃ c, (s.undertake a).1.channel? id = some c ∧ b'.Of capacity c) :
    b'.Mirrors capacity id (s.undertake a).1 where
  channel := channel
  subscribed still := undertake_mem s a (mirrors.subscribed (same ▸ still)) stays
  ended past := (undertake_registers s a).retired (mirrors.ended (same ▸ past))

private theorem Mirrors.silent (mirrors : b.Mirrors capacity id s) (rest : s.AtRest) (op : Operation α)
    (single : ∀ xs, op ≠ .process xs) (silent : s.announces? op = none) :
    (b.step capacity id (op, none)).Mirrors capacity id (s.perform op) := by
  obtain ⟨c, found, same⟩ := mirrors.channel
  rw [perform_silent s op single silent]
  cases op with
  | ingest x =>
    refine mirrors.undertakes _ rfl rfl ⟨c, ?_, same⟩
    obtain ⟨_, _, told⟩ := s.take_measures x
    rwa [undertake, told]
  | setTable points =>
    refine mirrors.undertakes _ rfl rfl ⟨c, ?_, same⟩
    obtain ⟨_, told⟩ := s.setTable_measures points
    rwa [undertake_setTable, told]
  | process xs => exact absurd rfl (single xs)
  | subscribeChannel room =>
    refine mirrors.undertakes _ rfl rfl ⟨c, ?_, same⟩
    change (s.subscribeChannel room).channel? id = some c
    rw [channel?_subscribeChannel, found, Option.some_or]
  | unsubscribe k =>
    rw [step]
    split
    · next mine =>
      subst mine
      refine ⟨⟨c, found, same.capacity, same.unread, same.connected⟩, fun still => ?_, fun _ => ?_⟩
      · cases still
      · cases subscribed : b.subscribed with
        | true => exact rest.orderly.retired (isSubscribed_of_mem (mirrors.subscribed subscribed))
        | false => exact (undertake_registers s _).retired (mirrors.ended subscribed)
    · next other => exact mirrors.undertakes _ (decide_eq_false other) rfl ⟨c, found, same⟩
  | receive k n =>
    have channel : (s.undertake (.receive k n)).1.channel? id =
        if id = k then (s.channel? id).map (Channel.drain n) else s.channel? id :=
      channel?_adjust s k id (Channel.drain n)
    rw [step]
    split
    · next mine =>
      rw [if_pos mine.symm, found] at channel
      refine mirrors.undertakes _ rfl rfl ⟨_, channel, same.capacity, ?_, same.connected⟩
      rw [Channel.drain, Queue.toList_drop, same.unread]
    · next other =>
      rw [if_neg (Ne.symm other), found] at channel
      exact mirrors.undertakes _ rfl rfl ⟨c, channel, same⟩
  | dropReceiver k =>
    have channel : (s.undertake (.dropReceiver k)).1.channel? id =
        if id = k then (s.channel? id).map Channel.cut else s.channel? id :=
      channel?_adjust s k id Channel.cut
    rw [step]
    split
    · next mine =>
      rw [if_pos mine.symm, found] at channel
      exact mirrors.undertakes _ rfl rfl ⟨_, channel, same.capacity, rfl, rfl⟩
    · next other =>
      rw [if_neg (Ne.symm other), found] at channel
      exact mirrors.undertakes _ rfl rfl ⟨c, channel, same⟩
  | clear => exact mirrors.undertakes _ rfl rfl ⟨c, found, same⟩
  | reset => exact mirrors.undertakes _ rfl rfl ⟨c, found, same⟩
  | shutdown => exact mirrors.undertakes _ rfl rfl ⟨c, found, same⟩
  | subscribeWith plan => exact mirrors.undertakes _ rfl rfl ⟨c, found, same⟩

private theorem Mirrors.step (mirrors : b.Mirrors capacity id s) (rest : s.AtRest) (op : Operation α)
    (single : ∀ xs, op ≠ .process xs) :
    (b.step capacity id (op, s.announces? op)).Mirrors capacity id (s.perform op) := by
  cases told : s.announces? op with
  | none => exact mirrors.silent rest op single told
  | some shown =>
    have announces := perform_announces s op shown rest.orderly rest.quiet told
    cases op with
    | ingest x => exact mirrors.announces rest (operate_issued_le s [.ingest x]) announces
    | _ => cases told

private theorem Mirrors.operate (mirrors : b.Mirrors capacity id s) (rest : s.AtRest)
    (ops : List (Operation α)) (plain : ∀ op ∈ ops, Plain op) :
    ((s.told ops).foldl (Inbox.step capacity id) b).Mirrors capacity id (s.operate ops) := by
  induction ops generalizing s b with
  | nil => exact mirrors
  | cons op later ih =>
    obtain ⟨⟨quiet, single⟩, others⟩ := List.forall_mem_cons.mp plain
    exact ih (mirrors.step rest op single) (rest.perform op quiet single) others

private theorem Mirrors.views (mirrors : b.Mirrors capacity id s) :
    s.unread id = b.unread ∧ s.isConnected id = b.connected ∧ s.isSubscribed id = b.subscribed ∧
      ∀ n, (s.receive id n).1 = b.unread.take n := by
  obtain ⟨c, found, same⟩ := mirrors.channel
  refine ⟨?_, ?_, ?_, fun n => ?_⟩
  · rw [Session.unread, found, ← same.unread]
    rfl
  · rw [isConnected, found, ← same.connected]
    rfl
  · cases subscribed : b.subscribed with
    | true => exact isSubscribed_of_mem (mirrors.subscribed subscribed)
    | false => exact (mirrors.ended subscribed).isSubscribed
  · rw [receive, found, ← same.unread, Queue.take_toList]
    rfl

end Inbox

namespace Session
variable [Scalar α]

omit [Scalar α] in
private theorem plain_of_quiet {ops : List (Operation α)} (quiet : ∀ op ∈ ops, op.Quiet) :
    ∀ op ∈ ops.flatMap Action.parts, Plain op := by
  intro op member
  obtain ⟨a, given, part⟩ := List.mem_flatMap.mp member
  cases a with
  | process xs =>
    rcases List.mem_append.mp part with sample | last
    · obtain ⟨x, _, rfl⟩ := List.mem_map.mp sample
      exact ⟨trivial, fun _ impossible => by cases impossible⟩
    · rw [List.mem_singleton.mp last]
      exact ⟨trivial, fun _ impossible => by cases impossible⟩
  | _ =>
    rw [List.mem_singleton.mp part]
    exact ⟨quiet _ given, fun _ impossible => by cases impossible⟩

private theorem AtRest.operate {s : Session α} (rest : s.AtRest) (ops : List (Operation α))
    (plain : ∀ op ∈ ops, Plain op) : (s.operate ops).AtRest := by
  induction ops generalizing s with
  | nil => exact rest
  | cons op later ih =>
    obtain ⟨⟨quiet, single⟩, others⟩ := List.forall_mem_cons.mp plain
    exact ih (rest.perform op quiet single) others

private theorem AtRest.callsTo_issued {s : Session α} (rest : s.AtRest) : s.callsTo s.issued = [] := by
  rw [callsTo, List.map_eq_nil_iff, List.filter_eq_nil_iff]
  intro call member
  simpa using Nat.ne_of_lt (rest.called call member)

private theorem Orderly.channel?_issued {s : Session α} (orderly : s.Orderly) :
    s.channel? s.issued = none := by
  rw [channel?, Option.map_eq_none_iff, List.find?_eq_none]
  intro entry member
  simpa using Nat.ne_of_lt (orderly.keys_used entry.1 (List.mem_map_of_mem member))

private theorem AtRest.mirrors_subscribeChannel {s : Session α} (rest : s.AtRest) (capacity : Nat) :
    Inbox.Mirrors capacity s.issued {} (s.subscribeChannel capacity) where
  channel := by
    refine ⟨{ capacity := max 1 capacity }, ?_, rfl, rfl, rfl⟩
    rw [channel?_subscribeChannel, rest.orderly.channel?_issued, if_pos rfl, Option.none_or]
  subscribed _ := List.mem_append_right _ (List.mem_singleton_self _)
  ended past := by cases past

/-- While callbacks do nothing, what a subscriber gets depends on the announcements since it subscribed
and on what is done to itself, and on nobody else. A callback is called with each announcement, in
order, until it is unsubscribed; a channel stands as the inbox of its owner. -/
theorem deliveries_of_run (m : Meter α) (ops : List (Operation α)) (quiet : ∀ op ∈ ops, op.Quiet) :
    let fresh : Session α := { meter := m }
    let single := ops.flatMap Action.parts
    let last := fresh.operate ops
    last = fresh.operate single ∧
      (∀ earlier plan later, single = earlier ++ .subscribeWith plan :: later →
        let s := fresh.operate earlier
        let heard := ((s.subscribe plan).told later).takeWhile (!·.1.unsubscribes s.issued)
        last.callsTo s.issued = heard.filterMap Prod.snd ∧
          last.isSubscribed s.issued = !later.any (·.unsubscribes s.issued)) ∧
      ∀ earlier capacity later, single = earlier ++ .subscribeChannel capacity :: later →
        let s := fresh.operate earlier
        let inbox : Inbox α := ((s.subscribeChannel capacity).told later).foldl
          (Inbox.step capacity s.issued) {}
        last.unread s.issued = inbox.unread ∧ last.isConnected s.issued = inbox.connected ∧
          last.isSubscribed s.issued = inbox.subscribed ∧
          ∀ n, (last.receive s.issued n).1 = inbox.unread.take n := by
  intro fresh single last
  have expanded : last = fresh.operate single := (operate_parts fresh ops).symm
  have plain : ∀ op ∈ single, Plain op := plain_of_quiet quiet
  refine ⟨expanded, ?_, ?_⟩
  · intro earlier plan later split s heard
    rw [split] at expanded plain
    obtain ⟨before, now⟩ := List.forall_mem_append.mp plain
    obtain ⟨⟨idle, alone⟩, after⟩ := List.forall_mem_cons.mp now
    have rest : s.AtRest := (atRest_start m).operate earlier before
    have member : ⟨s.issued, .callback⟩ ∈ (s.subscribe plan).subscriptions :=
      List.mem_append_right _ (List.mem_singleton_self _)
    obtain ⟨calls, subscribed⟩ := callsTo_of_subscribed
      (rest.perform (.subscribeWith plan) idle alone) member later after
    rw [show (s.perform (.subscribeWith plan)).callsTo s.issued = [] from rest.callsTo_issued] at calls
    rw [expanded, operate_append, operate_cons]
    exact ⟨calls, subscribed⟩
  · intro earlier capacity later split s inbox
    rw [split] at expanded plain
    obtain ⟨before, now⟩ := List.forall_mem_append.mp plain
    obtain ⟨⟨idle, alone⟩, after⟩ := List.forall_mem_cons.mp now
    have rest : s.AtRest := (atRest_start m).operate earlier before
    have mirrors := (rest.mirrors_subscribeChannel capacity).operate
      (rest.perform (.subscribeChannel capacity) idle alone) later after
    rw [expanded, operate_append, operate_cons]
    exact mirrors.views

namespace Mixed

-- The channel has room for one. It loses the second sample, and the third one is not announced.
def ops : List (Operation Float) :=
  [.subscribe, .subscribeChannel 0, .process [.plain 0 0.0, .plain 1 0.0], .ingest (.plain 2 0.0), .reset,
    .receive 1 1, .ingest (.plain 3 0.0), .dropReceiver 1, .ingest (.plain 3 1.0),
    .ingest (.plain 4 0.0), .unsubscribe 0, .ingest (.plain 5 0.0)]

def fresh : Session Float := { meter := Meter.start {} Table.empty }

def afterFirst : List (Operation Float) := (ops.flatMap Action.parts).drop 1

def afterSecond : List (Operation Float) := (ops.flatMap Action.parts).drop 2

end Mixed

theorem deliveries_of_run_mixed :
    let last := Mixed.fresh.operate Mixed.ops
    let heard := ((Mixed.fresh.subscribe []).told Mixed.afterFirst).takeWhile (!·.1.unsubscribes 0)
    let inbox : Inbox Float := (((Mixed.fresh.subscribe []).subscribeChannel 0).told
      Mixed.afterSecond).foldl (Inbox.step 0 1) {}
    (∀ op ∈ Mixed.ops, op.Quiet) ∧
      (last.callsTo 0).map (·.samples.length) = [1, 2, 4, 5] ∧ last.callsTo 0 = heard.filterMap Prod.snd ∧
      inbox.subscribed = false ∧ last.isSubscribed 1 = inbox.subscribed := by
  intro last heard inbox
  have quiet : ∀ op ∈ Mixed.ops, op.Quiet := by
    simp [Mixed.ops, Action.subscribe, Action.Quiet]
  obtain ⟨_, callbacks, channels⟩ := deliveries_of_run Mixed.fresh.meter Mixed.ops quiet
  refine ⟨quiet, by decide, ?_, by decide, ?_⟩
  · exact (callbacks [] [] Mixed.afterFirst rfl).1
  · exact (channels [.subscribe] 0 Mixed.afterSecond rfl).2.2.1

end Session
end Calorimetry
