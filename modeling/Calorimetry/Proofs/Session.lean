import Calorimetry.Session
import Mathlib.Logic.Relation

/-! What can be done to a session from outside, and what it does to the measurement. However rounds
of notification nest and whatever callbacks do in them, the measurement only ever takes in a sample,
is cleared, or is given another table, so what these three keep holds in every state of a session. -/

namespace Calorimetry
variable {α : Type} [Scalar α]

namespace Meter

/-- The three ways in which a measurement changes. -/
inductive Change : Meter α → Meter α → Prop
  | record (m : Meter α) (x : Sample α) (next : Meter α) (accepted : m.record x = .ok next) :
      Change m next
  | clear (m : Meter α) : Change m m.clear
  | withTable (m : Meter α) (t : Table α) : Change m (m.withTable t)

/-- Any number of changes, one after another. -/
abbrev Leads : Meter α → Meter α → Prop := Relation.ReflTransGen Change

theorem Leads.keeps {holds : Meter α → Prop} {m next : Meter α} (leads : Leads m next)
    (initial : holds m) (step : ∀ m next, Change m next → holds m → holds next) : holds next := by
  induction leads with
  | refl => exact initial
  | tail _ change ih => exact step _ _ change ih

end Meter

/-- The single actions that an action consists of. -/
def Action.parts : Action α → List (Action α)
  | .process xs => xs.map .ingest ++ [.shutdown]
  | a => [a]

namespace Session

/-- What can be done to a session from outside is what a callback can do to it. -/
abbrev Operation (α : Type) := Action α

def perform (s : Session α) (op : Operation α) : Session α := act ingest s op

def operate (s : Session α) (ops : List (Operation α)) : Session α := ops.foldl perform s

section Entries

omit [Scalar α]

theorem adjust_cons {β : Type} (id k : Nat) (f : β → β) (v : β) (rest : List (Nat × β)) :
    adjust id f ((k, v) :: rest) = (if k = id then (k, f v) else (k, v)) :: adjust id f rest := rfl

theorem adjust_keys {β : Type} (id : Nat) (f : β → β) (entries : List (Nat × β)) :
    (adjust id f entries).map Prod.fst = entries.map Prod.fst := by
  induction entries with
  | nil => rfl
  | cons entry rest ih =>
    obtain ⟨k, v⟩ := entry
    rw [adjust_cons, List.map_cons, List.map_cons, ih]
    split <;> rfl

private theorem find?_adjust_self {β : Type} (id : Nat) (f : β → β) (entries : List (Nat × β)) :
    ((adjust id f entries).find? (·.1 = id)).map Prod.snd =
      ((entries.find? (·.1 = id)).map Prod.snd).map f := by
  induction entries with
  | nil => rfl
  | cons entry rest ih =>
    obtain ⟨k, v⟩ := entry
    rw [adjust_cons]
    by_cases mine : k = id
    · simp [mine]
    · simpa [mine] using ih

private theorem find?_adjust_of_ne {β : Type} {id k : Nat} (other : k ≠ id) (f : β → β)
    (entries : List (Nat × β)) :
    (adjust id f entries).find? (·.1 = k) = entries.find? (·.1 = k) := by
  induction entries with
  | nil => rfl
  | cons entry rest ih =>
    obtain ⟨j, v⟩ := entry
    rw [adjust_cons, List.find?_cons, List.find?_cons, ih]
    by_cases mine : j = id
    · simp [mine, other.symm]
    · simp [mine]

end Entries

theorem channel?_adjust (s : Session α) (k id : Nat) (f : Channel α → Channel α) :
    ({ s with channels := adjust k f s.channels } : Session α).channel? id =
      if id = k then (s.channel? id).map f else s.channel? id := by
  rw [channel?, channel?]
  by_cases same : id = k
  · rw [if_pos same, same, find?_adjust_self]
  · rw [if_neg same, find?_adjust_of_ne same]

theorem channel?_subscribeChannel (s : Session α) (capacity id : Nat) :
    (s.subscribeChannel capacity).channel? id =
      (s.channel? id).or (if s.issued = id then some { capacity := max 1 capacity } else none) := by
  rw [subscribeChannel, channel?, channel?, List.find?_append]
  cases s.channels.find? (·.1 = id) with
  | some entry => rfl
  | none =>
    by_cases new : s.issued = id
    · simp [new]
    · simp [new]

def unread (s : Session α) (id : Nat) : List (Snapshot α) :=
  ((s.channel? id).map fun c => c.queue.toList).getD []

theorem operate_append (s : Session α) (ops later : List (Operation α)) :
    s.operate (ops ++ later) = (s.operate ops).operate later := List.foldl_append

private theorem operate_ingests (s : Session α) (xs : List (Sample α)) :
    s.operate (xs.map .ingest) = xs.foldl ingest s := List.foldl_map

theorem operate_cons (s : Session α) (op : Operation α) (later : List (Operation α)) :
    s.operate (op :: later) = (s.perform op).operate later := rfl

private theorem perform_parts (s : Session α) (op : Operation α) : s.operate op.parts = s.perform op := by
  cases op with
  | process xs =>
    rw [Action.parts, operate_append, operate_ingests]
    rfl
  | _ => rfl

/-- A stream is as good as its samples one by one and a shutdown. -/
theorem operate_parts (s : Session α) (ops : List (Operation α)) :
    s.operate (ops.flatMap Action.parts) = s.operate ops := by
  induction ops generalizing s with
  | nil => rfl
  | cons op rest ih =>
    rw [List.flatMap_cons, operate_append, perform_parts, ih, operate_cons]

theorem setTable_measures (s : Session α) (points : List (Point α)) :
    ∃ meter, (s.setTable points).toOption.getD s = { s with meter := meter } := by
  rw [setTable]
  cases Table.ofPoints points with
  | error e => exact ⟨s.meter, rfl⟩
  | ok t => exact ⟨s.meter.withTable t, rfl⟩

theorem take_cases (s : Session α) (x : Sample α) :
    (∃ e, s.meter.record x = .error e ∧ s.take x = ({ s with anomalies := s.anomalies + 1 }, none)) ∨
      ∃ next, s.meter.record x = .ok next ∧ s.take x = ({ s with meter := next },
        if s.isShutdown || s.subscriptions.isEmpty then none else some next.snapshot) := by
  rw [take]
  cases s.meter.record x with
  | error e => exact .inl ⟨e, rfl, rfl⟩
  | ok next => exact .inr ⟨next, rfl, rfl⟩

theorem take_measures (s : Session α) (x : Sample α) :
    ∃ meter anomalies, (s.take x).1 = { s with meter := meter, anomalies := anomalies } := by
  rcases s.take_cases x with ⟨_, _, told⟩ | ⟨next, _, told⟩
  · exact ⟨s.meter, s.anomalies + 1, by rw [told]⟩
  · exact ⟨next, s.anomalies, by rw [told]⟩

theorem take_subscriptions (s : Session α) (x : Sample α) :
    (s.take x).1.subscriptions = s.subscriptions := by
  obtain ⟨_, _, told⟩ := s.take_measures x
  rw [told]

theorem take_of_shutdown (s : Session α) (x : Sample α) (down : s.isShutdown = true) :
    (s.take x).2 = none := by
  rcases s.take_cases x with ⟨_, _, told⟩ | ⟨_, _, told⟩
  · rw [told]
  · simp [told, down]

/-- `next` is `s` after some changes of its measurement. -/
def Leads (s next : Session α) : Prop := Meter.Leads s.meter next.meter

theorem ingest_all_leads (ingest : Session α → Sample α → Session α)
    (nested : ∀ s x, Leads s (ingest s x)) (xs : List (Sample α)) (s : Session α) :
    Leads s (xs.foldl ingest s) := by
  induction xs generalizing s with
  | nil => exact .refl
  | cons x rest ih => exact (nested s x).trans (ih _)

private theorem act_leads (ingest : Session α → Sample α → Session α)
    (nested : ∀ s x, Leads s (ingest s x)) (s : Session α) (a : Action α) :
    Leads s (act ingest s a) := by
  cases a with
  | ingest x => exact nested s x
  | process xs => exact ingest_all_leads ingest nested xs s
  | clear => exact .single (.clear s.meter)
  | setTable points =>
    change Leads s ((s.setTable points).toOption.getD s)
    rw [setTable]
    cases Table.ofPoints points with
    | error e => exact .refl
    | ok t => exact .single (.withTable s.meter t)
  | reset => exact .refl
  | shutdown => exact .refl
  | subscribeWith plan => exact .refl
  | subscribeChannel capacity => exact .refl
  | unsubscribe id => exact .refl
  | receive id n => exact .refl
  | dropReceiver id => exact .refl

private theorem act_all_leads (ingest : Session α → Sample α → Session α)
    (nested : ∀ s x, Leads s (ingest s x)) (actions : List (Action α)) (s : Session α) :
    Leads s (actions.foldl (act ingest) s) := by
  induction actions generalizing s with
  | nil => exact .refl
  | cons a rest ih => exact (act_leads ingest nested s a).trans (ih _)

private theorem serve_leads (ingest : Session α → Sample α → Session α)
    (nested : ∀ s x, Leads s (ingest s x)) (shown : Snapshot α) (targets : List Subscription)
    (s : Session α) : Leads s (serve ingest shown targets s).1 := by
  induction targets generalizing s with
  | nil => exact .refl
  | cons t rest ih =>
    rw [serve]
    split
    · exact (act_all_leads ingest nested (s.nextActions t.id) (s.noteCall shown t.id)).trans (ih _)
    · split
      · exact ih (enqueue shown t.id s)
      · exact ih s

private theorem take_leads (s : Session α) (x : Sample α) : Leads s (s.take x).1 := by
  rw [take]
  split
  · exact .refl
  next next accepted => exact .single (.record _ x _ accepted)

/-- The induction is on the depth that is left: a nested round has less of it. -/
private theorem ingestWithin_leads (depth : Nat) (s : Session α) (x : Sample α) :
    Leads s (ingestWithin depth s x) := by
  induction depth generalizing s x with
  | zero => exact .refl
  | succ depth ih =>
    have taken := take_leads s x
    rw [ingestWithin]
    split
    next told => rwa [told] at taken
    next shown told =>
      rw [told] at taken
      exact taken.trans (serve_leads _ ih shown _ _)

theorem ingest_leads (s : Session α) (x : Sample α) : Leads s (s.ingest x) :=
  ingestWithin_leads _ s x

private theorem operate_leads (ops : List (Operation α)) (s : Session α) : Leads s (s.operate ops) :=
  act_all_leads ingest ingest_leads ops s

/-- What a new measurement has and every change keeps holds after any operations. -/
theorem operate_keeps {holds : Meter α → Prop} (m : Meter α) (initial : holds m)
    (step : ∀ m next, Meter.Change m next → holds m → holds next) (ops : List (Operation α)) :
    holds (operate { meter := m } ops).meter :=
  (operate_leads ops { meter := m }).keeps initial step

end Session
end Calorimetry
