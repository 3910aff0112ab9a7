import Calorimetry.Proofs.Session.Rounds

/-! Calls that can be left out. If what an action does cannot be seen once something is left out of the
session, then the action can be left out of its course, and everything else happens as before. Tables
that are refused can be left out in this way wherever they are to be installed, also by a callback in the
middle of a round; and how many samples have been refused so far makes no difference to what happens. -/

namespace Calorimetry.Session
variable {α : Type}

/-- The tasks with each action replaced by those that `left` has for it. -/
def abridged (left : Action α → List (Action α)) (tasks : List (Task α)) : List (Task α) :=
  tasks.flatMap fun
    | .act a => (left a).map .act
    | .round r => [.round r]

private theorem abridged_acts (left : Action α → List (Action α)) (actions : List (Action α)) :
    abridged left (actions.map .act) = (actions.flatMap left).map .act := by
  rw [abridged, List.flatMap_map, List.map_flatMap]

private theorem abridged_append (left : Action α → List (Action α)) (tasks later : List (Task α)) :
    abridged left (tasks ++ later) = abridged left tasks ++ abridged left later :=
  List.flatMap_append

variable [Scalar α]

/-- In the sessions that `view` shows an action is left out or replaced by one that does the same, and
rounds go on as they did. -/
structure Abridges (view : Session α → Session α) (left : Action α → List (Action α)) : Prop where
  acts : ∀ s a,
    (left a = [] ∧ view (s.undertake a).1 = view s ∧ (s.undertake a).2 = []) ∨
      ∃ b, left a = [b] ∧
        (view s).undertake b = (view (s.undertake a).1, abridged left (s.undertake a).2)
  attends : ∀ s shown t, (view s).attend shown t =
    (view (s.attend shown t).1, (s.attend shown t).2.1.flatMap left, (s.attend shown t).2.2)
  forgets : ∀ (s : Session α) gone, (view s).forget gone = view (s.forget gone)

private theorem operate_eq_of_reaches {s last : Session α} {ops : List (Operation α)}
    (reached : (Moment.before s ops).Reaches ⟨last, []⟩) : s.operate ops = last := by
  obtain ⟨_, operated⟩ := operate_reached s ops
  obtain ⟨_, passes⟩ := reached
  obtain ⟨_, one⟩ := operated.records
  obtain ⟨_, other⟩ := passes.records
  exact congrArg Moment.session (one.end_eq rfl other rfl)

namespace Abridges
variable {view : Session α → Session α} {left : Action α → List (Action α)} {m n : Moment α}
  {e : Event α} {trace : List (Event α)}

def moment (view : Session α → Session α) (left : Action α → List (Action α)) (m : Moment α) :
    Moment α := ⟨view m.session, abridged left m.tasks⟩

private theorem next (abridges : Abridges view left) (first : m.next? = some (e, n)) :
    (moment view left m).Reaches (moment view left n) := by
  -- An action that is left out makes no step in the shorter course, and whatever else happens makes one.
  rcases Moment.next?_cases first with ⟨a, rest, tasks, _, same, after⟩ |
    ⟨shown, t, waiting, gone, rest, tasks, _, same, after⟩ | ⟨shown, gone, rest, tasks, _, same, after⟩
  · rw [moment, moment, tasks, same, after, abridged_append]
    rcases abridges.acts m.session a with ⟨omitted, unseen, idle⟩ | ⟨b, kept, done⟩
    · rw [unseen, idle, show abridged left (.act a :: rest) = abridged left rest by simp [abridged, omitted]]
      exact .refl _
    · have step := Moment.next?_act (view m.session) b (abridged left rest)
      rw [done] at step
      rw [show abridged left (.act a :: rest) = .act b :: abridged left rest by simp [abridged, kept]]
      exact .of_next step
  · have round := Moment.next?_round (view m.session) shown t waiting gone (abridged left rest)
    rw [abridges.attends m.session shown t] at round
    rw [moment, moment, tasks, same, after, abridged_append, abridged_acts]
    exact .of_next round
  · rw [moment, moment, tasks, same, after, ← abridges.forgets]
    exact .of_next (e := .closed) rfl

private theorem passes (abridges : Abridges view left) (passed : m.Passes trace n) :
    (moment view left m).Reaches (moment view left n) := by
  induction passed with
  | refl => exact .refl _
  | step first _ ih => exact (abridges.next first).trans ih

theorem operate (abridges : Abridges view left) (s : Session α) (ops : List (Operation α)) :
    (view s).operate (ops.flatMap left) = view (s.operate ops) := by
  obtain ⟨_, reached⟩ := operate_reached s ops
  have shorter := abridges.passes reached
  rw [moment, Moment.before, abridged_acts] at shorter
  exact operate_eq_of_reaches shorter

end Abridges

/-! ## The number of refused samples -/

/-- The session with `k` more refused samples counted. -/
def tallied (k : Nat) (s : Session α) : Session α := { s with anomalies := s.anomalies + k }

theorem tallied_tallied (j k : Nat) (s : Session α) : (s.tallied j).tallied k = s.tallied (j + k) := by
  rw [tallied, tallied, tallied, Nat.add_assoc]

private theorem take_tallied (k : Nat) (s : Session α) (x : Sample α) :
    (s.tallied k).take x = ((s.take x).1.tallied k, (s.take x).2) := by
  have same : (s.tallied k).meter = s.meter := rfl
  rw [take, take, same]
  cases s.meter.record x with
  | error e => simp [tallied, Nat.add_right_comm]
  | ok next => rfl

private theorem abridges_tallied (k : Nat) : Abridges (α := α) (tallied k) fun a => [a] where
  acts s a := by
    refine .inr ⟨a, rfl, ?_⟩
    cases a with
    | ingest x =>
      rw [undertake, undertake, take_tallied]
      cases (s.take x).2 with
      | none => rfl
      | some shown => rfl
    | process xs =>
      rw [undertake, undertake, abridged_acts, List.flatMap_singleton']
    | setTable points =>
      rw [undertake_setTable, undertake_setTable, setTable, setTable]
      cases Table.ofPoints points with
      | error e => rfl
      | ok t => rfl
    | _ => rfl
  attends s shown t := by
    obtain ⟨id, sink⟩ := t
    rw [List.flatMap_singleton', attend, attend]
    cases sink with
    | callback => rfl
    | channel =>
      change (if s.isConnected id then _ else _) = _
      cases s.isConnected id with
      | true => rfl
      | false => rfl
  forgets s gone := rfl

/-- Nothing that happens depends on how many samples have been refused. -/
theorem operate_tallied (k : Nat) (s : Session α) (ops : List (Operation α)) :
    (s.tallied k).operate ops = (s.operate ops).tallied k := by
  have same := (abridges_tallied k).operate s ops
  rwa [List.flatMap_singleton'] at same

/-! ## Refused tables -/

end Session

namespace Action
variable {α : Type} [Scalar α]

mutual

/-- The action, if it is not to install a table that is refused. The callback that it may subscribe does
not install such a table either. -/
def withoutRefusals : Action α → List (Action α)
  | .setTable points => if (Table.ofPoints points).isOk then [.setTable points] else []
  | .subscribeWith plan => [.subscribeWith (planWithoutRefusals plan)]
  | a => [a]

def planWithoutRefusals : List (List (Action α)) → List (List (Action α))
  | [] => []
  | actions :: later => allWithoutRefusals actions :: planWithoutRefusals later

def allWithoutRefusals : List (Action α) → List (Action α)
  | [] => []
  | a :: rest => withoutRefusals a ++ allWithoutRefusals rest

end

private theorem allWithoutRefusals_eq (actions : List (Action α)) :
    allWithoutRefusals actions = actions.flatMap withoutRefusals := by
  induction actions with
  | nil => rfl
  | cons a rest ih => rw [allWithoutRefusals, ih, List.flatMap_cons]

private theorem planWithoutRefusals_eq (plan : Plan α) :
    planWithoutRefusals plan = plan.map (·.flatMap withoutRefusals) := by
  induction plan with
  | nil => rfl
  | cons actions later ih => rw [planWithoutRefusals, ih, allWithoutRefusals_eq, List.map_cons]

end Action

namespace Session
variable {α : Type} [Scalar α]

/-- A table that is refused now could as well have been left out. -/
theorem undertake_of_refused {s : Session α} {points : List (Point α)} {e : ConfigError}
    (refused : s.setTable points = .error e) :
    s.undertake (.setTable points) = (s, []) ∧ Action.withoutRefusals (.setTable points) = [] := by
  refine ⟨by rw [undertake_setTable, refused]; rfl, ?_⟩
  rw [setTable] at refused
  rw [Action.withoutRefusals]
  cases table : Table.ofPoints points with
  | error _ => rfl
  | ok t =>
    rw [table] at refused
    cases refused

/-- The session whose callbacks install no table that is refused. All else is as it was. -/
def withoutRefusals (s : Session α) : Session α :=
  { s with plans := s.plans.map fun (id, plan) => (id, plan.map (·.flatMap Action.withoutRefusals)) }

private theorem take_withoutRefusals (s : Session α) (x : Sample α) :
    s.withoutRefusals.take x = ((s.take x).1.withoutRefusals, (s.take x).2) := by
  have same : s.withoutRefusals.meter = s.meter := rfl
  rw [take, take, same]
  cases s.meter.record x with
  | error e => rfl
  | ok next => rfl

omit [Scalar α] in
private theorem find?_map_plans (id : Nat) (f : Plan α → Plan α) (plans : List (Nat × Plan α)) :
    ((plans.map fun (k, plan) => (k, f plan)).find? (·.1 = id)).map Prod.snd =
      ((plans.find? (·.1 = id)).map Prod.snd).map f := by
  rw [List.find?_map, Option.map_map, Option.map_map]
  rfl

private theorem nextActions_withoutRefusals (s : Session α) (id : Nat) :
    s.withoutRefusals.nextActions id = (s.nextActions id).flatMap Action.withoutRefusals := by
  rw [nextActions, nextActions, withoutRefusals, find?_map_plans]
  cases (s.plans.find? (·.1 = id)).map Prod.snd with
  | none => rfl
  | some plan =>
    cases plan with
    | nil => rfl
    | cons actions later => rfl

private theorem noteCall_withoutRefusals (s : Session α) (shown : Snapshot α) (id : Nat) :
    s.withoutRefusals.noteCall shown id = (s.noteCall shown id).withoutRefusals := by
  rw [noteCall, noteCall, withoutRefusals, withoutRefusals]
  congr 1
  rw [adjust, adjust, List.map_map, List.map_map]
  refine List.map_congr_left fun entry _ => ?_
  obtain ⟨k, plan⟩ := entry
  change (if k = id then _ else _) = _
  split
  · next mine => simp [mine, List.map_tail]
  · next other => simp [other]

theorem abridges_withoutRefusals : Abridges (α := α) withoutRefusals Action.withoutRefusals where
  acts s a := by
    cases a with
    | ingest x =>
      refine .inr ⟨.ingest x, rfl, ?_⟩
      rw [undertake, undertake, take_withoutRefusals]
      cases (s.take x).2 with
      | none => rfl
      | some shown => rfl
    | process xs =>
      refine .inr ⟨.process xs, rfl, ?_⟩
      rw [undertake, undertake, abridged_acts, Action.parts, List.flatMap_append, List.flatMap_map]
      congr 3
      exact List.map_eq_flatMap
    | setTable points =>
      cases table : Table.ofPoints points with
      | error e =>
        left
        rw [undertake_setTable, setTable, Action.withoutRefusals, table]
        exact ⟨rfl, rfl, rfl⟩
      | ok t =>
        refine .inr ⟨.setTable points, ?_, ?_⟩
        · rw [Action.withoutRefusals, table]
          rfl
        · rw [undertake_setTable, undertake_setTable, setTable, setTable, table]
          rfl
    | subscribeWith plan =>
      refine .inr ⟨_, rfl, ?_⟩
      rw [Action.planWithoutRefusals_eq]
      change (s.withoutRefusals.subscribe _, []) = ((s.subscribe plan).withoutRefusals, [])
      rw [subscribe, subscribe, withoutRefusals, withoutRefusals, List.map_append]
      rfl
    | _ => exact .inr ⟨_, rfl, rfl⟩
  attends s shown t := by
    obtain ⟨id, sink⟩ := t
    cases sink with
    | callback =>
      rw [attend, attend]
      dsimp only
      rw [noteCall_withoutRefusals, nextActions_withoutRefusals]
    | channel =>
      change (if s.isConnected id then _ else _) = _
      rw [attend]
      cases s.isConnected id with
      | true => rfl
      | false => rfl
  forgets s gone := rfl

end Calorimetry.Session
