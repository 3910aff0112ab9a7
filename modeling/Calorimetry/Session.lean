import Calorimetry.Meter

/-! A meter that is observed. After every accepted sample each subscriber is given the same
snapshot, in the order of subscription. A callback may act on the session while it is being
notified, so rounds of notification nest; a channel is a bounded queue that loses what finds it
full. -/

namespace Calorimetry

/-- What can be done to a session, from outside or by a callback that it calls. A subscription comes
with what its callback does on its first call, on its second one, and so on. -/
inductive Action (α : Type) where
  | ingest (x : Sample α)
  | process (xs : List (Sample α))
  | clear
  | reset
  | shutdown
  | setTable (points : List (Point α))
  | subscribeWith (plan : List (List (Action α)))
  | subscribeChannel (capacity : Nat)
  | unsubscribe (id : Nat)
  | receive (id n : Nat)
  | dropReceiver (id : Nat)

abbrev Plan (α : Type) := List (List (Action α))

namespace Action
variable {α : Type}

/-- Subscribes a callback that only looks at what it is shown. -/
def subscribe : Action α := .subscribeWith []

mutual

def count : Action α → Nat
  | .subscribeWith plan => 1 + countPlan plan
  | .ingest _ | .process _ | .clear | .reset | .shutdown | .setTable _ | .subscribeChannel _
  | .unsubscribe _ | .receive _ _ | .dropReceiver _ => 1

def countPlan : List (List (Action α)) → Nat
  | [] => 0
  | actions :: later => countAll actions + countPlan later

def countAll : List (Action α) → Nat
  | [] => 0
  | a :: rest => count a + countAll rest

end

end Action

structure Channel (α : Type) where
  capacity : Nat
  queue : Queue (Snapshot α) := {}
  connected : Bool := true

namespace Channel
variable {α : Type}

/-- A snapshot that finds the queue full is lost. -/
def offer (shown : Snapshot α) (c : Channel α) : Channel α :=
  if c.queue.length < c.capacity then { c with queue := c.queue.push shown } else c

def drain (n : Nat) (c : Channel α) : Channel α := { c with queue := c.queue.drop n }

/-- Nobody receives any more; what is queued is lost. -/
def cut (c : Channel α) : Channel α := { c with connected := false, queue := {} }

end Channel

inductive Sink where
  | callback
  | channel
  deriving DecidableEq

structure Subscription where
  id : Nat
  sink : Sink
  deriving DecidableEq

/-- Subscriptions are numbered in the order in which they were made. `plans` and `channels` are
kept by that number, also after the subscription has ended, because a round that has begun still
serves it. `calls` lists the calls made to callbacks. -/
structure Session (α : Type) [Scalar α] where
  meter : Meter α
  anomalies : Nat := 0
  isShutdown : Bool := false
  subscriptions : List Subscription := []
  issued : Nat := 0
  plans : List (Nat × Plan α) := []
  channels : List (Nat × Channel α) := []
  calls : Queue (Nat × Snapshot α) := {}

namespace Session
variable {α : Type} [Scalar α]

def adjust {β : Type} (id : Nat) (f : β → β) (entries : List (Nat × β)) : List (Nat × β) :=
  entries.map fun (k, v) => if k = id then (k, f v) else (k, v)

private def register (s : Session α) (sink : Sink) : Session α :=
  { s with subscriptions := s.subscriptions ++ [⟨s.issued, sink⟩], issued := s.issued + 1 }

def subscribe (s : Session α) (plan : Plan α) : Session α :=
  { s.register .callback with plans := s.plans ++ [(s.issued, plan)] }

def subscribeChannel (s : Session α) (capacity : Nat) : Session α :=
  { s.register .channel with
    channels := s.channels ++ [(s.issued, { capacity := max 1 capacity })] }

def isSubscribed (s : Session α) (id : Nat) : Bool := s.subscriptions.any (·.id = id)

def unsubscribe (s : Session α) (id : Nat) : Session α :=
  { s with subscriptions := s.subscriptions.filter (·.id ≠ id) }

def shutdown (s : Session α) : Session α := { s with isShutdown := true }

/-- Takes up notification again; what was measured stays. -/
def reset (s : Session α) : Session α := { s with isShutdown := false }

def clear (s : Session α) : Session α := { s with meter := s.meter.clear }

def setTable (s : Session α) (points : List (Point α)) : Except ConfigError (Session α) :=
  (Table.ofPoints points).map fun t => { s with meter := s.meter.withTable t }

def channel? (s : Session α) (id : Nat) : Option (Channel α) :=
  (s.channels.find? (·.1 = id)).map Prod.snd

def receive (s : Session α) (id n : Nat) : List (Snapshot α) × Session α :=
  let taken := ((s.channel? id).map fun c => c.queue.take n).getD []
  (taken, { s with channels := adjust id (Channel.drain n) s.channels })

def dropReceiver (s : Session α) (id : Nat) : Session α :=
  { s with channels := adjust id Channel.cut s.channels }

def pendingActions (s : Session α) : Nat := Action.countPlan (s.plans.flatMap Prod.snd)

/-- Performs an action, where `ingest` takes in a sample. A refused table leaves the session as it
was. -/
def act (ingest : Session α → Sample α → Session α) (s : Session α) : Action α → Session α
  | .ingest x => ingest s x
  | .process xs => (xs.foldl ingest s).shutdown
  | .clear => s.clear
  | .reset => s.reset
  | .shutdown => s.shutdown
  | .setTable points => (s.setTable points).toOption.getD s
  | .subscribeWith plan => s.subscribe plan
  | .subscribeChannel capacity => s.subscribeChannel capacity
  | .unsubscribe id => s.unsubscribe id
  | .receive id n => (s.receive id n).2
  | .dropReceiver id => s.dropReceiver id

def nextActions (s : Session α) (id : Nat) : List (Action α) :=
  (((s.plans.find? (·.1 = id)).map Prod.snd).bind List.head?).getD []

/-- Notes a call; the plan of the callback is then one call shorter. -/
def noteCall (shown : Snapshot α) (id : Nat) (s : Session α) : Session α :=
  { s with calls := s.calls.push (id, shown), plans := adjust id List.tail s.plans }

/-- The call is noted before the callback acts. -/
def callBack (ingest : Session α → Sample α → Session α) (shown : Snapshot α) (id : Nat)
    (s : Session α) : Session α :=
  (s.nextActions id).foldl (act ingest) (s.noteCall shown id)

def enqueue (shown : Snapshot α) (id : Nat) (s : Session α) : Session α :=
  { s with channels := adjust id (Channel.offer shown) s.channels }

def isConnected (s : Session α) (id : Nat) : Bool :=
  ((s.channel? id).map Channel.connected).getD false

/-- Serves the subscriptions `targets`, and returns those found without a receiver. -/
def serve (ingest : Session α → Sample α → Session α) (shown : Snapshot α) :
    List Subscription → Session α → Session α × List Nat
  | [], s => (s, [])
  | t :: rest, s =>
    match t.sink with
    | .callback => serve ingest shown rest (callBack ingest shown t.id s)
    | .channel =>
      if s.isConnected t.id then serve ingest shown rest (enqueue shown t.id s)
      else
        let (s, gone) := serve ingest shown rest s
        (s, t.id :: gone)

def forget (gone : List Nat) (s : Session α) : Session α :=
  { s with subscriptions := s.subscriptions.filter fun t => !gone.contains t.id }

/-- One round of notification to those subscribed when it begins. -/
def notify (ingest : Session α → Sample α → Session α) (shown : Snapshot α) (s : Session α) :
    Session α :=
  let (s, gone) := serve ingest shown s.subscriptions s
  s.forget gone

/-- The session after a sample, with what is then to be announced, if it was accepted and there is
anyone to tell. -/
def take (s : Session α) (x : Sample α) : Session α × Option (Snapshot α) :=
  match s.meter.record x with
  | .error _ => ({ s with anomalies := s.anomalies + 1 }, none)
  | .ok meter =>
    let s := { s with meter := meter }
    (s, if s.isShutdown || s.subscriptions.isEmpty then none else some meter.snapshot)

def ingestWithin : Nat → Session α → Sample α → Session α
  | 0, s, _ => s
  | depth + 1, s, x =>
    match s.take x with
    | (s, none) => s
    | (s, some shown) => notify (ingestWithin depth) shown s

/-- Takes a sample in. A nested round comes from an action that is then no longer pending, so the
pending actions bound the depth. -/
def ingest (s : Session α) (x : Sample α) : Session α := ingestWithin (s.pendingActions + 1) s x

def process (s : Session α) (xs : List (Sample α)) : Session α := (xs.foldl ingest s).shutdown

end Session
end Calorimetry
