import Calorimetry.Proofs.Session.Moments
import Calorimetry.Proofs.Stream

/-! What a course of a session does to the measurement. Samples, clearings and tables are done to it one
after another, in the order of the calls, however deep in rounds of notification they were called, and
nothing else is: without anyone subscribed the same calls lead to the same measurement. -/

namespace Calorimetry
variable {α : Type} [Scalar α]

/-- The measurement after an action that nobody is told of. -/
def Meter.undergo (m : Meter α) : Action α → Meter α
  | .ingest x => m.feed x
  | .clear => m.clear
  | .setTable points => (Table.ofPoints points).toOption.elim m m.withTable
  | _ => m

/-- An action that is done to the measurement changes it in one of three ways, if it is not refused. -/
theorem Meter.undergo_cases (m : Meter α) (a : Action α) : m.undergo a = m ∨ Change m (m.undergo a) := by
  cases a with
  | ingest x =>
    rw [undergo, feed]
    cases accepted : m.record x with
    | error e => exact .inl rfl
    | ok next => exact .inr (.record m x next accepted)
  | clear => exact .inr (.clear m)
  | setTable points =>
    rw [undergo]
    cases Table.ofPoints points with
    | error e => exact .inl rfl
    | ok t => exact .inr (.withTable m t)
  | _ => exact .inl rfl

def Action.measures : Action α → Bool
  | .ingest _ | .clear | .setTable _ => true
  | _ => false

namespace Session

omit [Scalar α] in
def Event.measuring? : Event α → Option (Action α)
  | .did a => if a.measures then some a else none
  | .served _ _ | .closed => none

private theorem undertake_meter (s : Session α) (a : Action α) :
    (s.undertake a).1.meter = ((Event.did a).measuring?.elim s.meter s.meter.undergo) := by
  cases a with
  | ingest x =>
    change (s.take x).1.meter = s.meter.feed x
    rw [take, Meter.feed]
    cases s.meter.record x with
    | error e => rfl
    | ok next => rfl
  | setTable points =>
    change ((s.setTable points).toOption.getD s).meter =
      (Table.ofPoints points).toOption.elim s.meter s.meter.withTable
    rw [setTable]
    cases Table.ofPoints points with
    | error e => rfl
    | ok t => rfl
  | _ => rfl

private theorem attend_meter (s : Session α) (shown : Snapshot α) (t : Subscription) :
    (s.attend shown t).1.meter = s.meter := by
  rw [attend]
  split
  · rfl
  · split
    · rfl
    · rfl

variable {m n : Moment α} {e : Event α} {trace : List (Event α)}

theorem next_meter (first : m.next? = some (e, n)) :
    n.session.meter = e.measuring?.elim m.session.meter m.session.meter.undergo := by
  rcases Moment.next?_cases first with ⟨a, _, _, rfl, same, _⟩ | ⟨shown, t, _, _, _, _, rfl, same, _⟩ |
    ⟨_, gone, _, _, rfl, same, _⟩
  · rw [same]
    exact undertake_meter m.session a
  · rw [same]
    exact attend_meter m.session shown t
  · rw [same]
    rfl

/-- Serving and ending rounds does nothing to the measurement. -/
theorem Moment.Passes.meter (passes : m.Passes trace n) :
    n.session.meter = (trace.filterMap Event.measuring?).foldl Meter.undergo m.session.meter := by
  induction passes with
  | refl => rfl
  | @step m next n e trace first _ ih =>
    rw [ih, next_meter first, List.filterMap_cons]
    cases e.measuring? with
    | none => rfl
    | some a => rfl

/-- Whatever happens, the measurement only changes in one of the three ways. -/
theorem Moment.Passes.leads (passes : m.Passes trace n) :
    Meter.Leads m.session.meter n.session.meter := by
  induction passes with
  | refl => exact .refl
  | @step m next n e trace first _ ih =>
    have changed : Meter.Leads m.session.meter next.session.meter := by
      rw [next_meter first]
      cases e.measuring? with
      | none => exact .refl
      | some a =>
        change Meter.Leads m.session.meter (m.session.meter.undergo a)
        rcases m.session.meter.undergo_cases a with same | change
        · rw [same]
        · exact .single change
    exact changed.trans ih

/-- Where nobody is subscribed, actions on the measurement are done one after another. -/
theorem operate_undergoes (actions : List (Action α)) (s : Session α) (passive : s.Passive)
    (measure : ∀ a ∈ actions, a.measures = true) :
    (s.operate actions).meter = actions.foldl Meter.undergo s.meter := by
  induction actions generalizing s with
  | nil => rfl
  | cons a later ih =>
    obtain ⟨first, others⟩ := List.forall_mem_cons.mp measure
    have done : (s.perform a).meter = s.meter.undergo a ∧ (s.perform a).Passive := by
      cases a with
      | ingest x => exact ingest_passive s x passive
      | clear => exact ⟨rfl, passive⟩
      | setTable points =>
        exact ⟨undertake_meter s (.setTable points), setTable_passive s points passive⟩
      | _ => cases first
    rw [operate_cons, ih _ done.2 others, done.1, List.foldl_cons]

omit [Scalar α] in
theorem measuring?_measures {trace : List (Event α)} :
    ∀ a ∈ trace.filterMap Event.measuring?, a.measures = true := by
  intro a member
  obtain ⟨e, _, given⟩ := List.mem_filterMap.mp member
  cases e with
  | did b =>
    rw [Event.measuring?] at given
    split at given
    · next measures =>
      cases given
      exact measures
    · cases given
  | served t shown => cases given
  | closed => cases given

end Session
end Calorimetry
