import Calorimetry.Proofs.Session.Endings
import Calorimetry.Proofs.Session.Replay

/-! Rounds within rounds. What happens in a session is written down with the number of rounds that are in
progress then, and a round is what happens one deeper than the sample that it announces, up to its end.
However deep rounds nest, each of them serves those that were subscribed when it began. -/

namespace Calorimetry.Session
variable {α : Type}

/-- An event, with the number of rounds that are in progress when it happens. -/
structure Entry (α : Type) where
  depth : Nat
  event : Event α

/-- Whether the event belongs to a round itself, and is not an action. -/
def Event.ofRound : Event α → Bool
  | .did _ => false
  | .served _ _ | .closed => true

/-- What rounds do at one depth; the actions of callbacks are left out. -/
def roundsAt (depth : Nat) (record : List (Entry α)) : List (Event α) :=
  (record.filter fun entry => entry.depth = depth && entry.event.ofRound).map Entry.event

/-- The part of a record before the depth is at most `depth` again. -/
def deeper (depth : Nat) (record : List (Entry α)) : List (Entry α) :=
  record.takeWhile fun entry => depth < entry.depth

def Task.isRound : Task α → Bool
  | .act _ => false
  | .round _ => true

def depth (tasks : List (Task α)) : Nat := tasks.countP Task.isRound

private theorem depth_append (tasks later : List (Task α)) : depth (tasks ++ later) = depth tasks + depth later :=
  List.countP_append

private theorem depth_acts (actions : List (Action α)) : depth (actions.map .act) = 0 := by
  rw [depth, List.countP_map, List.countP_eq_zero]
  intro a _
  exact Bool.false_ne_true

private theorem depth_round (r : Round α) (rest : List (Task α)) : depth (.round r :: rest) = depth rest + 1 :=
  List.countP_cons_of_pos rfl

private theorem depth_act (a : Action α) (rest : List (Task α)) : depth (.act a :: rest) = depth rest :=
  List.countP_cons_of_neg Bool.false_ne_true

variable [Scalar α]

/-- After what is written in `record` has happened, `m` has become `n`. -/
inductive Moment.Records : Moment α → List (Entry α) → Moment α → Prop
  | refl (m : Moment α) : Records m [] m
  | step {m next n : Moment α} {e : Event α} {record : List (Entry α)}
      (first : m.next? = some (e, next)) (later : Records next record n) :
      Records m (⟨depth m.tasks, e⟩ :: record) n

variable {m n : Moment α} {record : List (Entry α)}

open Moment (Records)

private theorem Moment.Records.passes (records : m.Records record n) : m.Passes (record.map Entry.event) n := by
  induction records with
  | refl => exact .refl _
  | step first _ ih => exact .step first ih

theorem Moment.Passes.records {trace : List (Event α)} (passes : m.Passes trace n) :
    ∃ record, m.Records record n := by
  induction passes with
  | refl => exact ⟨[], .refl _⟩
  | step first _ ih =>
    obtain ⟨record, later⟩ := ih
    exact ⟨_, .step first later⟩

/-- What is written down of the next `k` events. -/
def Moment.recorded : Nat → Moment α → List (Entry α)
  | 0, _ => []
  | k + 1, m =>
    match m.next? with
    | none => []
    | some (e, next) => ⟨depth m.tasks, e⟩ :: next.recorded k

private theorem Moment.recorded_records (k : Nat) (m : Moment α) : m.Records (m.recorded k) (m.run k).2 := by
  induction k generalizing m with
  | zero => exact .refl m
  | succ k ih =>
    rw [recorded, run]
    cases first : m.next? with
    | none => exact .refl m
    | some step => exact .step first (ih step.2)

/-- Nothing can happen in two ways, so a course has one end. -/
theorem Moment.Records.end_eq {other : List (Entry α)} {k : Moment α} (records : m.Records record n)
    (done : n.tasks = []) (others : m.Records other k) (finished : k.tasks = []) : n = k := by
  have stuck {m : Moment α} (idle : m.tasks = []) : m.next? = none := by
    obtain ⟨s, tasks⟩ := m
    cases idle
    rfl
  induction records generalizing other with
  | refl =>
    cases others with
    | refl => rfl
    | step first _ =>
      rw [stuck done] at first
      cases first
  | step first _ ih =>
    cases others with
    | refl =>
      rw [stuck finished] at first
      cases first
    | step second rest =>
      rw [first] at second
      cases second
      exact ih done rest

private theorem Moment.Records.deeper_eq_nil (records : m.Records record n) {level : Nat}
    (shallow : depth m.tasks ≤ level) : deeper level record = [] := by
  cases records with
  | refl => rfl
  | step _ _ => exact List.takeWhile_cons_of_neg (by simpa using shallow)

omit [Scalar α] in
private theorem roundsAt_cons_of_pos {level : Nat} {e : Event α} (ofRound : e.ofRound = true)
    (record : List (Entry α)) :
    roundsAt level (⟨level, e⟩ :: record) = e :: roundsAt level record := by
  rw [roundsAt, List.filter_cons_of_pos (by simp [ofRound]), List.map_cons, roundsAt]

omit [Scalar α] in
private theorem roundsAt_cons_did (level deep : Nat) (a : Action α) (record : List (Entry α)) :
    roundsAt level (⟨deep, .did a⟩ :: record) = roundsAt level record := by
  rw [roundsAt, List.filter_cons_of_neg (by simp [Event.ofRound]), roundsAt]

omit [Scalar α] in
private theorem roundsAt_cons_of_lt {level deep : Nat} (deeper : level < deep) (e : Event α)
    (record : List (Entry α)) : roundsAt level (⟨deep, e⟩ :: record) = roundsAt level record := by
  rw [roundsAt, List.filter_cons_of_neg (by simp [Nat.ne_of_gt deeper]), roundsAt]

/-- A round that is in progress serves those that are waiting, in order, and ends. Above it there may be
what a callback has still to do, and other rounds. -/
private theorem Moment.Records.round (records : m.Records record n) (done : n.tasks = [])
    {above rest : List (Task α)} {r : Round α} (tasks : m.tasks = above ++ .round r :: rest) :
    roundsAt (depth rest + 1) (deeper (depth rest) record) =
      r.waiting.map (.served · r.shown) ++ [.closed] := by
  induction records generalizing above r with
  | refl m =>
    rw [tasks] at done
    exact absurd done (List.append_ne_nil_of_right_ne_nil _ (List.cons_ne_nil _ _))
  | @step m next n e record first later ih =>
    have deep : depth m.tasks = depth above + (depth rest + 1) := by
      rw [tasks, depth_append, depth_round]
    have inside : deeper (depth rest) (⟨depth m.tasks, e⟩ :: record) =
        ⟨depth m.tasks, e⟩ :: deeper (depth rest) record :=
      List.takeWhile_cons_of_pos (by simp [deep]; omega)
    rw [inside]
    cases above with
    | nil =>
      -- It is the innermost one, and it is what goes on.
      rw [deep, show depth ([] : List (Task α)) = 0 from rfl, Nat.zero_add]
      rcases Moment.next?_cases first with ⟨_, _, now, _⟩ | ⟨shown, t, waiting, gone, _, now, rfl, _, left⟩ |
        ⟨shown, gone, _, now, rfl, _, left⟩
      · rw [tasks] at now
        cases now
      · rw [tasks] at now
        cases now
        rw [roundsAt_cons_of_pos rfl, ih done left]
        rfl
      · rw [tasks] at now
        cases now
        rw [roundsAt_cons_of_pos rfl, later.deeper_eq_nil (by rw [left])]
        rfl
    | cons task above =>
      -- What goes on is an action, or a round further in, so nothing is written down of this one.
      rcases Moment.next?_cases first with ⟨a, _, now, rfl, _, left⟩ |
        ⟨shown, t, waiting, gone, _, now, rfl, _, left⟩ | ⟨shown, gone, _, now, rfl, _, left⟩
      · rw [tasks] at now
        cases now
        rw [roundsAt_cons_did, ih done (left.trans (List.append_assoc _ _ _).symm)]
      · rw [tasks] at now
        cases now
        rw [depth_round] at deep
        rw [roundsAt_cons_of_lt (by omega), ih done (left.trans (List.append_assoc _ (_ :: above) _).symm)]
      · rw [tasks] at now
        cases now
        rw [depth_round] at deep
        rw [roundsAt_cons_of_lt (by omega), ih done left]

/-- In this state the event is an accepted sample, and there is someone to be shown what is then
measured. -/
inductive Begins (s : Session α) : Event α → Snapshot α → Prop
  | ingest (x : Sample α) (next : Meter α) (accepted : s.meter.record x = .ok next)
      (up : s.isShutdown = false) (subscribed : s.subscriptions ≠ []) :
      Begins s (.did (.ingest x)) next.snapshot

private theorem Begins.undertake {s : Session α} {x : Sample α} {shown : Snapshot α}
    (begins : s.Begins (.did (.ingest x)) shown) :
    (s.undertake (.ingest x)).2 = [.round ⟨shown, s.subscriptions, []⟩] := by
  cases begins with
  | ingest _ next accepted up subscribed =>
    have telling : (s.isShutdown || s.subscriptions.isEmpty) = false := by simp [up, subscribed]
    rw [Session.undertake, take_subscriptions, take, accepted]
    simp [telling]

private theorem undertake_depth (s : Session α) (a : Action α) (quiet : ∀ shown, ¬s.Begins (.did a) shown) :
    depth (s.undertake a).2 = 0 := by
  cases a with
  | ingest x =>
    rw [undertake]
    rcases s.take_cases x with ⟨_, _, told⟩ | ⟨next, accepted, told⟩
    · rw [told]
      rfl
    · have silent : (s.isShutdown || s.subscriptions.isEmpty) = true := by
        by_contra telling
        rw [Bool.not_eq_true, Bool.or_eq_false_iff] at telling
        refine quiet _ (.ingest x next accepted telling.1 ?_)
        rintro empty
        simp [empty] at telling
      rw [told]
      simp [silent, depth]
  | process xs => exact depth_acts _
  | _ => rfl

variable {e : Event α}

private theorem next_of_begins {shown : Snapshot α} (first : m.next? = some (e, n))
    (begins : m.session.Begins e shown) :
    ∃ rest, depth rest = depth m.tasks ∧ n.tasks = .round ⟨shown, m.session.subscriptions, []⟩ :: rest := by
  rcases Moment.next?_cases first with ⟨a, rest, now, rfl, _, left⟩ | ⟨_, _, _, _, _, _, rfl, _⟩ |
    ⟨_, _, _, _, rfl, _⟩
  · cases begins with
    | ingest x next accepted up subscribed =>
      rw [(Begins.ingest x next accepted up subscribed).undertake] at left
      exact ⟨rest, by rw [now, depth_act], left⟩
  · cases begins
  · cases begins

private theorem next_depth_le (first : m.next? = some (e, n)) (quiet : ∀ shown, ¬m.session.Begins e shown) :
    depth n.tasks ≤ depth m.tasks := by
  rcases Moment.next?_cases first with ⟨a, rest, now, rfl, _, left⟩ | ⟨_, _, _, _, _, now, _, _, left⟩ |
    ⟨_, _, _, now, _, _, left⟩
  · rw [now, left, depth_act, depth_append, undertake_depth _ a quiet, Nat.zero_add]
  · rw [now, left, depth_append, depth_acts, depth_round, depth_round, Nat.zero_add]
  · rw [now, left, depth_round]
    exact Nat.le_succ _

private theorem next_ofRound (first : m.next? = some (e, n)) (ofRound : e.ofRound = true) : 0 < depth m.tasks := by
  rcases Moment.next?_cases first with ⟨_, _, _, rfl, _⟩ | ⟨_, _, _, _, _, now, _⟩ | ⟨_, _, _, now, _⟩
  · cases ofRound
  · rw [now, depth_round]
    exact Nat.succ_pos _
  · rw [now, depth_round]
    exact Nat.succ_pos _

/-- Rounds are well formed however deep they nest. Every run of operations, with callbacks that act as
they like, comes to an end. Each sample that is accepted while there is someone to tell is followed by one
round, a level deeper. It serves those subscribed at that moment, once each and in their order, with what
is measured then, and it ends. Nothing else leads deeper. What is measured in the end is what the same
calls, one after another, lead to without subscribers. -/
theorem rounds_well_formed (m : Meter α) (ops : List (Operation α)) :
    let start := Moment.before { meter := m } ops
    let final := operate { meter := m } ops
    (∃ record, start.Records record ⟨final, []⟩) ∧
      (∀ record last, start.Records record last → last.tasks = [] →
        let trace := record.map Entry.event
        let calls := trace.filterMap Event.measuring?
        last.session = final ∧ Delivers start trace last ∧ (∀ a ∈ calls, a.measures = true) ∧
          final.meter = (operate { meter := m } calls).meter) ∧
      ∀ earlier now e next later last, start.Records earlier now → now.next? = some (e, next) →
        next.Records later last → last.tasks = [] →
        let level := depth now.tasks
        now.session.Orderly ∧ (e.ofRound = true → 0 < level) ∧
          (∀ shown, now.session.Begins e shown →
            roundsAt (level + 1) (deeper level later) =
              now.session.subscriptions.map (.served · shown) ++ [.closed]) ∧
          ((∀ shown, ¬now.session.Begins e shown) → deeper level later = []) := by
  intro start final
  obtain ⟨_, reached⟩ := operate_reached { meter := m } ops
  obtain ⟨whole, ended⟩ := reached.records
  refine ⟨⟨whole, ended⟩, ?_, ?_⟩
  · intro record last records done trace calls
    have measures : ∀ a ∈ calls, a.measures = true := measuring?_measures
    have measured := records.passes.meter
    have same := records.end_eq done ended rfl
    refine ⟨by rw [same], records.passes.delivers, measures, ?_⟩
    rw [operate_undergoes calls { meter := m } (List.forall_mem_nil _) measures]
    rwa [same] at measured
  · intro earlier now e next later last before first after done level
    refine ⟨before.passes.orderly (orderly_start m), next_ofRound first, ?_, ?_⟩
    · intro shown begins
      obtain ⟨rest, same, left⟩ := next_of_begins first begins
      have round := after.round done (show next.tasks = [] ++ .round _ :: rest from left)
      rwa [same] at round
    · intro quiet
      exact after.deeper_eq_nil (next_depth_le first quiet)

namespace Nested

/-- When it is called first, the first callback takes in another sample, ends the other subscription and
makes a third one. -/
def ops : List (Operation Float) :=
  [.subscribeWith [[.ingest (.plain 1 0.0), .unsubscribe 1, .subscribe]], .subscribe, .ingest (.plain 0 0.0)]

def meter : Meter Float := Meter.start {} Table.empty

def start : Moment Float := .before { meter } ops

def now : Moment Float := (start.run 2).2

def next : Moment Float := (start.run 3).2

def later : List (Entry Float) := next.recorded 9

end Nested

/-- The round of the first sample serves both, though when it comes to the second one, this has been served
in the round of the second sample and has been unsubscribed. -/
theorem rounds_well_formed_nested :
    ∃ last shown, Nested.next.Records Nested.later last ∧ last.tasks.length = 0 ∧
      Nested.later.map Entry.depth = [1, 1, 2, 2, 2, 1, 1, 1, 1] ∧
      (called (Nested.later.map Entry.event)).map Prod.fst = [0, 0, 1, 1] ∧
      Nested.now.session.Begins (.did (.ingest (.plain 0 0.0))) shown ∧
      roundsAt 1 (deeper 0 Nested.later) =
        [.served ⟨0, .callback⟩ shown, .served ⟨1, .callback⟩ shown, .closed] := by
  have later := Moment.recorded_records 9 Nested.next
  have accepted : (Nested.now.session.meter.record (.plain 0 0.0)).isOk = true := by decide
  cases taken : Nested.now.session.meter.record (.plain 0 0.0) with
  | error e =>
    rw [taken] at accepted
    cases accepted
  | ok measured =>
    have begins : Nested.now.session.Begins (.did (.ingest (.plain 0 0.0))) measured.snapshot :=
      .ingest _ measured taken rfl (List.cons_ne_nil _ _)
    obtain ⟨_, _, rounds⟩ := rounds_well_formed Nested.meter Nested.ops
    refine ⟨_, _, later, by decide, by decide, by decide, begins, ?_⟩
    exact (rounds _ _ _ _ _ _ (Moment.recorded_records 2 _) rfl later
      (List.eq_nil_of_length_eq_zero (by decide))).2.2.1 _ begins

end Calorimetry.Session
