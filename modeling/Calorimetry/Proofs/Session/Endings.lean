import Calorimetry.Proofs.Session.Register
import Mathlib.Data.List.Basic

/-! What is still delivered after a subscription has ended, or the session has been shut down. A round
works on the subscriptions that there were when it began, so those in progress go on as they would have
gone on, and nothing else is delivered. -/

namespace Calorimetry.Session
variable {α : Type}

def Event.serving? : Event α → Option (Subscription × Snapshot α)
  | .served t shown => some (t, shown)
  | .did _ | .closed => none

/-- The subscriptions served, one after another, and what each was shown. -/
def served (trace : List (Event α)) : List (Subscription × Snapshot α) :=
  trace.filterMap Event.serving?

def called (trace : List (Event α)) : List (Nat × Snapshot α) :=
  ((served trace).filter (·.1.sink = .callback)).map fun (t, shown) => (t.id, shown)

def Task.due : Task α → List (Subscription × Snapshot α)
  | .act _ => []
  | .round r => r.waiting.map (·, r.shown)

/-- What the rounds in progress have still to serve, the innermost of them first. -/
def due (tasks : List (Task α)) : List (Subscription × Snapshot α) := tasks.flatMap Task.due

private theorem due_acts (actions : List (Action α)) : due (actions.map .act) = [] := by
  induction actions with
  | nil => rfl
  | cons a rest ih => exact ih

private theorem due_append (tasks later : List (Task α)) : due (tasks ++ later) = due tasks ++ due later :=
  List.flatMap_append

variable [Scalar α]

/-- The calls are those of the trace, and a channel that it does not serve gains nothing. -/
structure Delivers (m : Moment α) (trace : List (Event α)) (n : Moment α) : Prop where
  calls : n.session.calls.toList = m.session.calls.toList ++ called trace
  unread : ∀ id, (∀ shown, .served ⟨id, .channel⟩ shown ∉ trace) →
    n.session.unread id <:+ m.session.unread id

/-- No round that begins in this state serves anyone of those picked. -/
def Spares (picks : Subscription → Bool) (s : Session α) : Prop :=
  s.isShutdown = true ∨ ∀ t ∈ s.subscriptions, picks t = false

variable {m n : Moment α} {e : Event α} {trace : List (Event α)} {picks : Subscription → Bool}

private theorem undertake_due (s : Session α) (a : Action α) (spares : s.Spares picks) :
    (due (s.undertake a).2).filter (picks ·.1) = [] := by
  cases a with
  | ingest x =>
    rw [undertake, take_subscriptions]
    rcases spares with down | spared
    · rw [take_of_shutdown s x down]
      rfl
    · rw [List.filter_eq_nil_iff]
      rintro ⟨t, shown⟩ member
      obtain ⟨task, announced, member⟩ := List.mem_flatMap.mp member
      obtain ⟨_, _, rfl⟩ := List.mem_map.mp announced
      obtain ⟨_, subscribed, same⟩ := List.mem_map.mp member
      cases same
      simp [spared t subscribed]
  | process xs => rw [undertake, due_acts, List.filter_nil]
  | _ => rfl

private theorem due_next (first : m.next? = some (e, n)) (spares : m.session.Spares picks) :
    (due m.tasks).filter (picks ·.1) =
      (served [e]).filter (picks ·.1) ++ (due n.tasks).filter (picks ·.1) := by
  rcases Moment.next?_cases first with ⟨a, rest, tasks, rfl, _, left⟩ |
    ⟨shown, t, waiting, gone, rest, tasks, rfl, _, left⟩ | ⟨shown, gone, rest, tasks, rfl, _, left⟩
  · rw [tasks, left, due_append, List.filter_append, undertake_due m.session a spares]
    rfl
  · rw [tasks, left, due_append, due_acts, List.nil_append, ← List.filter_append]
    rfl
  · rw [tasks, left]
    rfl

omit [Scalar α] in
private theorem served_cons (e : Event α) (trace : List (Event α)) :
    served (e :: trace) = served [e] ++ served trace :=
  List.filterMap_append (l := [e])

/-- As long as no round begins that serves those picked, they get exactly what is due to them. -/
private theorem due_passes (picks : Subscription → Bool) {holds : Session α → Prop}
    (passes : m.Passes trace n) (initial : holds m.session) (spares : ∀ s, holds s → s.Spares picks)
    (step : ∀ (m n : Moment α) (e : Event α), e ∈ trace → m.next? = some (e, n) →
      holds m.session → holds n.session) :
    (due m.tasks).filter (picks ·.1) =
      (served trace).filter (picks ·.1) ++ (due n.tasks).filter (picks ·.1) := by
  induction passes with
  | refl => rfl
  | @step m next n e trace first later ih =>
    have others := ih (step _ _ _ List.mem_cons_self first initial) fun m n e member =>
      step m n e (List.mem_cons_of_mem _ member)
    rw [due_next first (spares _ initial), others, served_cons e trace, List.filter_append,
      List.append_assoc]

private theorem next_shutdown (first : m.next? = some (e, n)) (down : m.session.isShutdown = true)
    (stays : e ≠ .did .reset) : n.session.isShutdown = true := by
  rcases Moment.next?_cases first with ⟨a, _, _, rfl, same, _⟩ | ⟨shown, t, _, _, _, _, _, same, _⟩ |
    ⟨_, gone, _, _, _, same, _⟩
  · rw [same]
    cases a with
    | ingest x =>
      obtain ⟨_, _, same⟩ := m.session.take_measures x
      rwa [undertake, same]
    | setTable points =>
      obtain ⟨_, same⟩ := m.session.setTable_measures points
      rwa [undertake_setTable, same]
    | reset => exact absurd rfl stays
    | shutdown => rfl
    | _ => exact down
  · rw [same, attend]
    split
    · exact down
    · split
      · exact down
      · exact down
  · rw [same]
    exact down

private theorem calls_next (first : m.next? = some (e, n)) :
    n.session.calls.toList = m.session.calls.toList ++ called [e] := by
  rcases Moment.next?_cases first with ⟨a, _, _, rfl, same, _⟩ | ⟨shown, t, _, _, _, _, rfl, same, _⟩ |
    ⟨_, gone, _, _, rfl, same, _⟩
  · change _ = m.session.calls.toList ++ []
    rw [same, List.append_nil, undertake_calls]
  · obtain ⟨id, sink⟩ := t
    rw [same]
    cases sink with
    | callback => exact Queue.toList_push _ _
    | channel =>
      change _ = m.session.calls.toList ++ []
      rw [attend, List.append_nil]
      dsimp only
      split
      · rfl
      · rfl
  · change _ = m.session.calls.toList ++ []
    rw [same, List.append_nil]
    rfl

private theorem unread_adjust (s : Session α) (k id : Nat) (f : Channel α → Channel α)
    (fewer : ∀ c, (f c).queue.toList <:+ c.queue.toList) :
    ({ s with channels := adjust k f s.channels } : Session α).unread id <:+ s.unread id := by
  rw [unread, unread, channel?_adjust]
  split
  · cases s.channel? id with
    | none => exact List.suffix_refl _
    | some c => exact fewer c
  · exact List.suffix_refl _

private theorem unread_subscribeChannel (s : Session α) (capacity id : Nat) :
    (s.subscribeChannel capacity).unread id <:+ s.unread id := by
  rw [unread, unread, channel?_subscribeChannel]
  cases s.channel? id with
  | some c => exact List.suffix_refl _
  | none =>
    rw [Option.none_or]
    split
    · exact List.suffix_refl _
    · exact List.suffix_refl _

private theorem unread_next {id : Nat} (first : m.next? = some (e, n))
    (unserved : ∀ shown, e ≠ .served ⟨id, .channel⟩ shown) :
    n.session.unread id <:+ m.session.unread id := by
  -- Only serving this channel could add to it. Receiving takes from the front.
  rcases Moment.next?_cases first with ⟨a, _, _, rfl, same, _⟩ | ⟨shown, t, _, _, _, _, rfl, same, _⟩ |
    ⟨_, gone, _, _, rfl, same, _⟩
  · rw [same]
    cases a with
    | ingest x =>
      obtain ⟨_, _, same⟩ := m.session.take_measures x
      rw [undertake, same]
      exact List.suffix_refl _
    | setTable points =>
      obtain ⟨_, same⟩ := m.session.setTable_measures points
      rw [undertake_setTable, same]
      exact List.suffix_refl _
    | subscribeChannel capacity => exact unread_subscribeChannel m.session capacity id
    | receive k n =>
      refine unread_adjust m.session k id (Channel.drain n) fun c => ?_
      rw [Channel.drain, Queue.toList_drop]
      exact List.drop_suffix _ _
    | dropReceiver k =>
      exact unread_adjust m.session k id Channel.cut fun c => List.nil_suffix
    | _ => exact List.suffix_refl _
  · obtain ⟨k, sink⟩ := t
    rw [same]
    cases sink with
    | callback => exact List.suffix_refl _
    | channel =>
      rw [attend]
      dsimp only
      split
      · have other : id ≠ k := by
          rintro rfl
          exact unserved shown rfl
        rw [enqueue, unread, channel?_adjust, if_neg other]
        exact List.suffix_refl _
      · exact List.suffix_refl _
  · rw [same]
    exact List.suffix_refl _

omit [Scalar α] in
private theorem called_cons (e : Event α) (trace : List (Event α)) :
    called (e :: trace) = called [e] ++ called trace := by
  rw [called, served_cons, List.filter_append, List.map_append]
  rfl

theorem Moment.Passes.delivers (passes : m.Passes trace n) : Delivers m trace n := by
  induction passes with
  | refl m => exact ⟨(List.append_nil _).symm, fun _ _ => List.suffix_refl _⟩
  | @step m next n e trace first _ ih =>
    constructor
    · rw [ih.calls, calls_next first, called_cons e trace, List.append_assoc]
    · intro id unserved
      have others := ih.unread id fun shown member => unserved shown (List.mem_cons_of_mem _ member)
      refine others.trans (unread_next first ?_)
      rintro shown rfl
      exact unserved shown List.mem_cons_self

private theorem next_did {a : Action α} (first : m.next? = some (.did a, n)) :
    n.session = (m.session.undertake a).1 ∧
      due n.tasks = due (m.session.undertake a).2 ++ due m.tasks := by
  rcases Moment.next?_cases first with ⟨b, rest, tasks, done, same, left⟩ |
    ⟨_, _, _, _, _, _, done, _⟩ | ⟨_, _, _, _, done, _⟩
  · cases done
    rw [left, due_append, tasks]
    exact ⟨same, rfl⟩
  · cases done
  · cases done

/-- Ending a subscription or shutting down stops nothing that has begun, and is final otherwise. In the
course of any run, callbacks that act included, whoever is unsubscribed is served afterwards exactly by
the rounds in progress that had still to do so; and after a shutdown, as long as there is no reset,
exactly what the rounds in progress had still to do is done. -/
theorem endings_spare_rounds_in_progress (m : Meter α) (ops : List (Operation α)) :
    let start := Moment.before { meter := m } ops
    start.Reaches ⟨operate { meter := m } ops, []⟩ ∧
      ∀ earlier now e next later last, start.Passes earlier now → now.next? = some (e, next) →
        next.Passes later last →
        Delivers next later last ∧
        (∀ id, e = .did (.unsubscribe id) → now.session.isSubscribed id = true →
          (due now.tasks).filter (·.1.id = id) =
            (served later).filter (·.1.id = id) ++ (due last.tasks).filter (·.1.id = id)) ∧
        (e = .did .shutdown → .did .reset ∉ later → due now.tasks = served later ++ due last.tasks) := by
  refine ⟨operate_reached _ ops, ?_⟩
  intro earlier now e next later last came first passes
  refine ⟨passes.delivers, ?_, ?_⟩
  · rintro id rfl subscribed
    have orderly := came.orderly (orderly_start m)
    obtain ⟨same, left⟩ := next_did first
    have retired : next.session.Retired id := by
      rw [same]
      exact orderly.retired subscribed
    have exactly := due_passes (fun t => t.id = id) passes retired
      (fun s gone => .inr fun t member => by simpa using gone.2 t member)
      fun _ _ _ _ first => (next_registers first).retired
    rwa [left] at exactly
  · rintro rfl unreset
    obtain ⟨same, left⟩ := next_did first
    have down : next.session.isShutdown = true := by
      rw [same]
      rfl
    have exactly := due_passes (fun _ => true) passes down (fun s down => .inl down)
      fun _ _ _ member first down => next_shutdown first down (ne_of_mem_of_not_mem member unreset)
    rw [List.filter_true, List.filter_true, List.filter_true, left] at exactly
    exact exactly

namespace Leftover

/-- The first callback unsubscribes the second, which shuts the session down, and there is a third. -/
def ops : List (Operation Float) :=
  [.subscribeWith [[.unsubscribe 1]], .subscribeWith [[.shutdown]], .subscribe, .ingest (.plain 0 0.0)]

def meter : Meter Float := Meter.start {} Table.empty

def start : Moment Float := .before { meter } ops

def unsubscribing : Moment Float := (start.run 5).2

def shuttingDown : Moment Float := (start.run 7).2

end Leftover

/-- In the round of the first sample, the second callback is called after it has been unsubscribed, and
the third one after the session has been shut down. -/
theorem served_after_endings :
    (operate { meter := Leftover.meter } Leftover.ops).calls.toList.map Prod.fst = [0, 1, 2] ∧
      (∃ next trace last, Leftover.start.Reaches Leftover.unsubscribing ∧
        Leftover.unsubscribing.session.isSubscribed 1 = true ∧
        Leftover.unsubscribing.next? = some (.did (.unsubscribe 1), next) ∧
        next.Passes trace last ∧ trace.length = 1 ∧ (served trace).map Prod.fst = [⟨1, .callback⟩]) ∧
      ∃ next trace last, Leftover.start.Reaches Leftover.shuttingDown ∧
        Leftover.shuttingDown.next? = some (.did .shutdown, next) ∧
        next.Passes trace last ∧ trace.length = 1 ∧ (served trace).map Prod.fst = [⟨2, .callback⟩] := by
  refine ⟨by decide, ?_, ?_⟩
  · have later := Moment.run_passes 1 (Leftover.start.run 6).2
    exact ⟨_, _, _, ⟨_, Moment.run_passes 5 _⟩, by decide, rfl, later, by decide, by decide⟩
  · have later := Moment.run_passes 1 (Leftover.start.run 8).2
    exact ⟨_, _, _, ⟨_, Moment.run_passes 7 _⟩, rfl, later, by decide, by decide⟩

theorem endings_spare_rounds_in_progress_leftover :
    ∃ next later last, Leftover.unsubscribing.next? = some (.did (.unsubscribe 1), next) ∧
      Leftover.unsubscribing.session.isSubscribed 1 = true ∧ next.Passes later last ∧
      last.tasks.length = 0 ∧ (due Leftover.unsubscribing.tasks).map (·.1.id) = [1, 2] ∧
      (due Leftover.unsubscribing.tasks).filter (·.1.id = 1) =
        (served later).filter (·.1.id = 1) ++ (due last.tasks).filter (·.1.id = 1) := by
  have later := Moment.run_passes 20 (Leftover.start.run 6).2
  refine ⟨_, _, _, rfl, by decide, later, by decide, by decide, ?_⟩
  obtain ⟨_, course⟩ := endings_spare_rounds_in_progress Leftover.meter Leftover.ops
  exact (course _ _ _ _ _ _ (Moment.run_passes 5 _) rfl later).2.1 1 rfl (by decide)

end Calorimetry.Session
