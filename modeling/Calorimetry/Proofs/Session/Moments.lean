import Calorimetry.Proofs.Session

/-! The course of a session, moment by moment. Doing one action and serving one subscriber are single
steps, and what is still to be done waits in the order in which it will be. What a callback does comes
before the rest of its round, so rounds nest. Every run of operations is such a course, and what its
steps keep holds at each moment of it. -/

namespace Calorimetry.Session
variable {α : Type}

/-- A round of notification in progress: those it has still to serve, and those it has found without a
receiver. -/
structure Round (α : Type) where
  shown : Snapshot α
  waiting : List Subscription
  gone : List Nat

inductive Task (α : Type) where
  | act (a : Action α)
  | round (r : Round α)

inductive Event (α : Type) where
  | did (a : Action α)
  | served (t : Subscription) (shown : Snapshot α)
  | closed

structure Moment (α : Type) [Scalar α] where
  session : Session α
  tasks : List (Task α)

variable [Scalar α]

/-- What an action does at once, and what it leaves to be done. -/
def undertake (s : Session α) : Action α → Session α × List (Task α)
  | .ingest x =>
    let taken := s.take x
    (taken.1, taken.2.toList.map fun shown => .round ⟨shown, taken.1.subscriptions, []⟩)
  | .process xs => (s, (Action.process xs).parts.map .act)
  | a => (s.perform a, [])

theorem undertake_setTable (s : Session α) (points : List (Point α)) :
    s.undertake (.setTable points) = ((s.setTable points).toOption.getD s, []) := rfl

theorem undertake_calls (s : Session α) (a : Action α) : (s.undertake a).1.calls = s.calls := by
  cases a with
  | ingest x =>
    obtain ⟨_, _, same⟩ := s.take_measures x
    rw [undertake, same]
  | setTable points =>
    obtain ⟨_, same⟩ := s.setTable_measures points
    rw [undertake_setTable, same]
  | _ => rfl

/-- Serves one subscription. Its callback has then some actions to do, or it is found without a
receiver. -/
def attend (shown : Snapshot α) (t : Subscription) (s : Session α) :
    Session α × List (Action α) × List Nat :=
  match t.sink with
  | .callback => (s.noteCall shown t.id, s.nextActions t.id, [])
  | .channel => if s.isConnected t.id then (s.enqueue shown t.id, [], []) else (s, [], [t.id])

namespace Moment

/-- What happens next, and the moment after it. -/
def next? : Moment α → Option (Event α × Moment α)
  | ⟨_, []⟩ => none
  | ⟨s, .act a :: rest⟩ =>
    let (s, tasks) := s.undertake a
    some (.did a, ⟨s, tasks ++ rest⟩)
  | ⟨s, .round ⟨_, [], gone⟩ :: rest⟩ => some (.closed, ⟨s.forget gone, rest⟩)
  | ⟨s, .round ⟨shown, t :: waiting, gone⟩ :: rest⟩ =>
    let (s, actions, lost) := s.attend shown t
    some (.served t shown,
      ⟨s, actions.map .act ++ .round ⟨shown, waiting, gone ++ lost⟩ :: rest⟩)

theorem next?_act (s : Session α) (a : Action α) (rest : List (Task α)) :
    next? ⟨s, .act a :: rest⟩ =
      some (.did a, ⟨(s.undertake a).1, (s.undertake a).2 ++ rest⟩) := rfl

theorem next?_round (s : Session α) (shown : Snapshot α) (t : Subscription)
    (waiting : List Subscription) (gone : List Nat) (rest : List (Task α)) :
    next? ⟨s, .round ⟨shown, t :: waiting, gone⟩ :: rest⟩ =
      some (.served t shown, ⟨(s.attend shown t).1, (s.attend shown t).2.1.map .act ++
        .round ⟨shown, waiting, gone ++ (s.attend shown t).2.2⟩ :: rest⟩) := rfl

def before (s : Session α) (ops : List (Operation α)) : Moment α := ⟨s, ops.map .act⟩

/-- After `trace` has happened, `m` has become `n`. -/
inductive Passes : Moment α → List (Event α) → Moment α → Prop
  | refl (m : Moment α) : Passes m [] m
  | step {m next n : Moment α} {e : Event α} {trace : List (Event α)}
      (first : m.next? = some (e, next)) (later : Passes next trace n) : Passes m (e :: trace) n

def Reaches (m n : Moment α) : Prop := ∃ trace, m.Passes trace n

/-- The first `n` events, and the moment after them. -/
def run : Nat → Moment α → List (Event α) × Moment α
  | 0, m => ([], m)
  | n + 1, m =>
    match m.next? with
    | none => ([], m)
    | some (e, next) => (e :: (run n next).1, (run n next).2)

theorem run_passes (n : Nat) (m : Moment α) : m.Passes (m.run n).1 (m.run n).2 := by
  induction n generalizing m with
  | zero => exact .refl m
  | succ n ih =>
    rw [run]
    split
    · exact .refl m
    next first => exact .step first (ih _)

theorem run_add (j k : Nat) (m : Moment α) :
    m.run (j + k) = ((m.run j).1 ++ ((m.run j).2.run k).1, ((m.run j).2.run k).2) := by
  induction j generalizing m with
  | zero => rw [Nat.zero_add, run, List.nil_append]
  | succ j ih =>
    rw [Nat.add_right_comm, run, run]
    cases first : m.next? with
    | none =>
      cases k with
      | zero => rfl
      | succ k => simp [run, first]
    | some step => simp [ih]

private theorem Passes.trans {m n k : Moment α} {earlier later : List (Event α)}
    (first : m.Passes earlier n) (second : n.Passes later k) : m.Passes (earlier ++ later) k := by
  induction first with
  | refl => exact second
  | step next _ ih => exact .step next (ih second)

theorem Reaches.refl (m : Moment α) : m.Reaches m := ⟨[], .refl m⟩

theorem Reaches.trans {m n k : Moment α} (first : m.Reaches n) (second : n.Reaches k) :
    m.Reaches k := by
  obtain ⟨earlier, passes⟩ := first
  obtain ⟨later, passes'⟩ := second
  exact ⟨earlier ++ later, passes.trans passes'⟩

theorem Reaches.of_next {m n : Moment α} {e : Event α} (first : m.next? = some (e, n)) :
    m.Reaches n := ⟨[e], .step first (.refl n)⟩

/-- A step does an action, serves a subscription, or ends a round. -/
theorem next?_cases {m n : Moment α} {e : Event α} (first : m.next? = some (e, n)) :
    (∃ a rest, m.tasks = .act a :: rest ∧ e = .did a ∧ n.session = (m.session.undertake a).1 ∧
      n.tasks = (m.session.undertake a).2 ++ rest) ∨
    (∃ shown t waiting gone rest, m.tasks = .round ⟨shown, t :: waiting, gone⟩ :: rest ∧
      e = .served t shown ∧ n.session = (m.session.attend shown t).1 ∧
      n.tasks = (m.session.attend shown t).2.1.map .act ++
        .round ⟨shown, waiting, gone ++ (m.session.attend shown t).2.2⟩ :: rest) ∨
    (∃ shown gone rest, m.tasks = .round ⟨shown, [], gone⟩ :: rest ∧ e = .closed ∧
      n.session = m.session.forget gone ∧ n.tasks = rest) := by
  obtain ⟨s, _ | ⟨a | ⟨shown, _ | ⟨t, waiting⟩, gone⟩, rest⟩⟩ := m
  · simp [next?] at first
  · obtain ⟨rfl, rfl⟩ := Prod.mk.inj (Option.some.inj first)
    exact .inl ⟨a, rest, rfl, rfl, rfl, rfl⟩
  · obtain ⟨rfl, rfl⟩ := Prod.mk.inj (Option.some.inj first)
    exact .inr (.inr ⟨shown, gone, rest, rfl, rfl, rfl, rfl⟩)
  · obtain ⟨rfl, rfl⟩ := Prod.mk.inj (Option.some.inj first)
    exact .inr (.inl ⟨shown, t, waiting, gone, rest, rfl, rfl, rfl, rfl⟩)

/-- What one step keeps holds at every later moment. -/
theorem Passes.keeps {m n : Moment α} {trace : List (Event α)} (passes : m.Passes trace n)
    (holds : Session α → Prop) (initial : holds m.session)
    (step : ∀ (m n : Moment α) (e : Event α), e ∈ trace → m.next? = some (e, n) →
      holds m.session → holds n.session) : holds n.session := by
  induction passes with
  | refl => exact initial
  | step first _ ih =>
    refine ih (step _ _ _ List.mem_cons_self first initial) ?_
    intro m n e member
    exact step m n e (List.mem_cons_of_mem _ member)

end Moment

section Pending

omit [Scalar α]

private theorem countPlan_append (plan later : Plan α) :
    Action.countPlan (plan ++ later) = Action.countPlan plan + Action.countPlan later := by
  induction plan with
  | nil => rw [List.nil_append, Action.countPlan, Nat.zero_add]
  | cons actions rest ih => rw [List.cons_append, Action.countPlan, Action.countPlan, ih, Nat.add_assoc]

private theorem countPlan_tail (plan : Plan α) :
    Action.countPlan plan.tail + Action.countAll (plan.head?.getD []) = Action.countPlan plan := by
  cases plan with
  | nil => rfl
  | cons actions rest => exact Nat.add_comm _ _

/-- Actions that are pending in some plans. -/
def pendingIn (plans : List (Nat × Plan α)) : Nat := Action.countPlan (plans.flatMap Prod.snd)

private theorem pendingIn_cons (entry : Nat × Plan α) (plans : List (Nat × Plan α)) :
    pendingIn (entry :: plans) = Action.countPlan entry.2 + pendingIn plans := by
  rw [pendingIn, List.flatMap_cons, countPlan_append, pendingIn]

private theorem pendingIn_adjust_le (id : Nat) (plans : List (Nat × Plan α)) :
    pendingIn (adjust id List.tail plans) ≤ pendingIn plans := by
  induction plans with
  | nil => exact Nat.le_refl _
  | cons entry rest ih =>
    obtain ⟨k, plan⟩ := entry
    have shorter := countPlan_tail plan
    rw [adjust_cons, pendingIn_cons, pendingIn_cons]
    split
    · exact Nat.add_le_add (Nat.le.intro shorter) ih
    · exact Nat.add_le_add_left ih _

private theorem pendingIn_adjust (id : Nat) (plans : List (Nat × Plan α)) :
    pendingIn (adjust id List.tail plans) +
        Action.countAll ((((plans.find? (·.1 = id)).map Prod.snd).bind List.head?).getD []) ≤
      pendingIn plans := by
  induction plans with
  | nil => exact Nat.le_refl _
  | cons entry rest ih =>
    obtain ⟨k, plan⟩ := entry
    have fewer := pendingIn_adjust_le id rest
    have shorter := countPlan_tail plan
    rw [adjust_cons, pendingIn_cons, pendingIn_cons, List.find?_cons]
    by_cases mine : k = id
    · rw [if_pos mine, decide_eq_true mine]
      change Action.countPlan plan.tail + _ + Action.countAll (plan.head?.getD []) ≤
        Action.countPlan plan + _
      omega
    · rw [if_neg mine, decide_eq_false mine]
      have others := Nat.add_le_add_left ih (Action.countPlan plan)
      rwa [← Nat.add_assoc] at others

end Pending

theorem serve_cons (ingest : Session α → Sample α → Session α) (shown : Snapshot α)
    (t : Subscription) (waiting : List Subscription) (s : Session α) :
    serve ingest shown (t :: waiting) s =
      let served := serve ingest shown waiting
        ((s.attend shown t).2.1.foldl (act ingest) (s.attend shown t).1)
      (served.1, (s.attend shown t).2.2 ++ served.2) := by
  obtain ⟨id, sink⟩ := t
  cases sink with
  | callback => rfl
  | channel =>
    rw [serve, attend]
    dsimp only
    split <;> rfl

private theorem pendingActions_noteCall (s : Session α) (shown : Snapshot α) (id : Nat) :
    (s.noteCall shown id).pendingActions + Action.countAll (s.nextActions id) ≤ s.pendingActions :=
  pendingIn_adjust id s.plans

theorem attend_pendingActions (s : Session α) (shown : Snapshot α) (t : Subscription) :
    (s.attend shown t).1.pendingActions + Action.countAll (s.attend shown t).2.1 ≤
      s.pendingActions := by
  rw [attend]
  split
  · exact pendingActions_noteCall s shown t.id
  · split
    · exact Nat.le_refl _
    · exact Nat.le_refl _

private theorem pendingActions_subscribe (s : Session α) (plan : Plan α) :
    (s.subscribe plan).pendingActions = s.pendingActions + Action.countPlan plan := by
  change Action.countPlan ((s.plans ++ [(s.issued, plan)]).flatMap Prod.snd) = _
  rw [List.flatMap_append, countPlan_append, List.flatMap_singleton, pendingActions]

private theorem take_pendingActions (s : Session α) (x : Sample α) :
    (s.take x).1.pendingActions = s.pendingActions := by
  obtain ⟨_, _, same⟩ := s.take_measures x
  rw [same]
  rfl

/-- From any moment at which fewer than `depth` actions are pending, taking a sample in by steps ends
where `ingest` does, and no more actions are pending then. -/
def Stepwise (depth : Nat) (ingest : Session α → Sample α → Session α) : Prop :=
  ∀ (s : Session α) (x : Sample α) (rest : List (Task α)), s.pendingActions < depth →
    Moment.Reaches ⟨s, .act (.ingest x) :: rest⟩ ⟨ingest s x, rest⟩ ∧
      (ingest s x).pendingActions ≤ s.pendingActions

variable {depth : Nat} {ingest : Session α → Sample α → Session α}

open Moment (Reaches)

private theorem Stepwise.ingest_all (stepwise : Stepwise depth ingest) (xs : List (Sample α))
    (s : Session α) (rest : List (Task α)) (few : s.pendingActions < depth) :
    Reaches ⟨s, (xs.map Action.ingest).map .act ++ rest⟩ ⟨xs.foldl ingest s, rest⟩ ∧
      (xs.foldl ingest s).pendingActions ≤ s.pendingActions := by
  induction xs generalizing s with
  | nil => exact ⟨.refl _, Nat.le_refl _⟩
  | cons x later ih =>
    obtain ⟨first, fewer⟩ := stepwise s x ((later.map Action.ingest).map .act ++ rest) few
    obtain ⟨others, fewest⟩ := ih (ingest s x) (by omega)
    exact ⟨first.trans others, by rw [List.foldl_cons]; omega⟩

theorem Stepwise.act (stepwise : Stepwise depth ingest) (s : Session α) (a : Action α)
    (rest : List (Task α)) (few : s.pendingActions < depth) :
    Reaches ⟨s, .act a :: rest⟩ ⟨act ingest s a, rest⟩ ∧
      (act ingest s a).pendingActions + 1 ≤ s.pendingActions + a.count := by
  cases a with
  | ingest x =>
    obtain ⟨reached, fewer⟩ := stepwise s x rest few
    exact ⟨reached, Nat.succ_le_succ fewer⟩
  | process xs =>
    obtain ⟨reached, fewer⟩ := stepwise.ingest_all xs s (.act .shutdown :: rest) few
    refine ⟨?_, Nat.succ_le_succ fewer⟩
    have begun := Reaches.of_next (Moment.next?_act s (.process xs) rest)
    rw [undertake, Action.parts, List.map_append, List.append_assoc] at begun
    exact begun.trans (reached.trans (.of_next (e := .did .shutdown) rfl))
  | setTable points =>
    refine ⟨.of_next (e := .did (.setTable points)) rfl, ?_⟩
    obtain ⟨_, same⟩ := s.setTable_measures points
    rw [Session.act, same]
    exact Nat.le_refl _
  | subscribeWith plan =>
    refine ⟨.of_next (e := .did (.subscribeWith plan)) rfl, ?_⟩
    change (s.subscribe plan).pendingActions + 1 ≤ _
    rw [pendingActions_subscribe, Action.count]
    omega
  | clear => exact ⟨.of_next (e := .did .clear) rfl, Nat.le_refl _⟩
  | reset => exact ⟨.of_next (e := .did .reset) rfl, Nat.le_refl _⟩
  | shutdown => exact ⟨.of_next (e := .did .shutdown) rfl, Nat.le_refl _⟩
  | subscribeChannel capacity =>
    exact ⟨.of_next (e := .did (.subscribeChannel capacity)) rfl, Nat.le_refl _⟩
  | unsubscribe id => exact ⟨.of_next (e := .did (.unsubscribe id)) rfl, Nat.le_refl _⟩
  | receive id n => exact ⟨.of_next (e := .did (.receive id n)) rfl, Nat.le_refl _⟩
  | dropReceiver id => exact ⟨.of_next (e := .did (.dropReceiver id)) rfl, Nat.le_refl _⟩

omit [Scalar α] in
theorem one_le_count (a : Action α) : 1 ≤ a.count := by
  cases a <;> simp [Action.count]

private theorem Stepwise.act_all (stepwise : Stepwise depth ingest) (actions : List (Action α))
    (s : Session α) (rest : List (Task α)) (few : s.pendingActions + Action.countAll actions ≤ depth) :
    Reaches ⟨s, actions.map .act ++ rest⟩ ⟨actions.foldl (Session.act ingest) s, rest⟩ ∧
      (actions.foldl (Session.act ingest) s).pendingActions ≤
        s.pendingActions + Action.countAll actions := by
  induction actions generalizing s with
  | nil => exact ⟨.refl _, Nat.le_refl _⟩
  | cons a later ih =>
    have := one_le_count a
    rw [Action.countAll] at few ⊢
    obtain ⟨first, fewer⟩ := stepwise.act s a (later.map .act ++ rest) (by omega)
    obtain ⟨others, fewest⟩ := ih (Session.act ingest s a) (by omega)
    exact ⟨first.trans others, by rw [List.foldl_cons]; omega⟩

private theorem Stepwise.serve (stepwise : Stepwise depth ingest) (shown : Snapshot α)
    (targets : List Subscription) (gone : List Nat) (s : Session α) (rest : List (Task α))
    (few : s.pendingActions ≤ depth) :
    Reaches ⟨s, .round ⟨shown, targets, gone⟩ :: rest⟩
        ⟨(serve ingest shown targets s).1,
          .round ⟨shown, [], gone ++ (serve ingest shown targets s).2⟩ :: rest⟩ ∧
      (serve ingest shown targets s).1.pendingActions ≤ s.pendingActions := by
  -- What a callback does comes off its own plan, so the bound on what is pending is kept for the
  -- next one to be served.
  induction targets generalizing gone s with
  | nil => exact ⟨by rw [Session.serve, List.append_nil]; exact .refl _, Nat.le_refl _⟩
  | cons t waiting ih =>
    have attended := attend_pendingActions s shown t
    have first := Reaches.of_next (Moment.next?_round s shown t waiting gone rest)
    obtain ⟨acted, fewer⟩ := stepwise.act_all (s.attend shown t).2.1 (s.attend shown t).1
      (.round ⟨shown, waiting, gone ++ (s.attend shown t).2.2⟩ :: rest) (by omega)
    obtain ⟨others, fewest⟩ := ih (gone ++ (s.attend shown t).2.2)
      ((s.attend shown t).2.1.foldl (Session.act ingest) (s.attend shown t).1) (by omega)
    rw [serve_cons, ← List.append_assoc]
    exact ⟨first.trans (acted.trans others), Nat.le_trans fewest (Nat.le_trans fewer attended)⟩

/-- The bound on the depth of nested rounds is never met: each of them comes from an action that is no
longer pending. -/
theorem ingestWithin_stepwise (depth : Nat) : Stepwise depth (ingestWithin (α := α) depth) := by
  induction depth with
  | zero =>
    intro s x rest few
    exact absurd few (Nat.not_lt_zero _)
  | succ depth ih =>
    intro s x rest few
    have took := take_pendingActions s x
    have begun := Reaches.of_next (Moment.next?_act s (.ingest x) rest)
    rw [undertake] at begun
    rw [ingestWithin]
    rcases told : s.take x with ⟨t, _ | shown⟩
    · rw [told] at took begun
      exact ⟨begun, Nat.le_of_eq took⟩
    · rw [told] at took begun
      -- Nothing is used up yet, but any callback that takes a sample in has an action less to do.
      obtain ⟨served, fewer⟩ := ih.serve shown t.subscriptions [] t rest
        (by rw [show t.pendingActions = s.pendingActions from took]; omega)
      exact ⟨begun.trans (served.trans (.of_next (e := .closed) rfl)), Nat.le_trans fewer (Nat.le_of_eq took)⟩

theorem ingest_stepwise (depth : Nat) : Stepwise depth (Session.ingest (α := α)) := by
  intro s x rest _
  exact ingestWithin_stepwise _ s x rest (Nat.lt_succ_self _)

/-- Every run of operations is a course of steps that leaves nothing to be done. -/
theorem operate_reached (s : Session α) (ops : List (Operation α)) :
    (Moment.before s ops).Reaches ⟨s.operate ops, []⟩ := by
  have reached := ((ingest_stepwise _).act_all ops s [] (Nat.le_refl _)).1
  rwa [List.append_nil] at reached

end Calorimetry.Session
