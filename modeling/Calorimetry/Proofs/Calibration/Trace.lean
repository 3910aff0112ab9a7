import Calorimetry.Calibration

/-! What a calibration run does to its surroundings, as a list of events. Any environment can be
observed: it then keeps the list of what was done to it, and apart from the list the run is the same.
Properties of every run are therefore stated on the events of the observed run. -/

namespace Calorimetry.Calibration

/-- A command with its answer, or a sleep, with the state that it left. -/
inductive Event (σ : Type) where
  | commanded (h : Heaters) (answer : Except HardwareError Unit) (after : σ)
  | slept (d : Duration) (after : σ)

structure Observed (σ : Type) where
  state : σ
  events : List (Event σ) := []

variable {σ τ α : Type}

def Event.command? : Event σ → Option Heaters
  | .commanded h _ _ => some h
  | .slept _ _ => none

def Observed.commands (o : Observed σ) : List Heaters := o.events.filterMap Event.command?

/-- The environment with a list of what is done to it. -/
def Environment.observed (env : Environment σ α) : Environment (Observed σ) α where
  command h o :=
    let (answer, after) := env.command h o.state
    (answer, ⟨after, o.events ++ [.commanded h answer after]⟩)
  sleep d o := ⟨env.sleep d o.state, o.events ++ [.slept d (env.sleep d o.state)]⟩
  now o := env.now o.state
  cancelled o := env.cancelled o.state
  latestTime? o := env.latestTime? o.state
  slopeSince? since o := env.slopeSince? since o.state
  now_lt_sleep d o := env.now_lt_sleep d o.state

/-- The states of one environment, looked at through `view`, behave as those of the other. -/
structure Environment.Views (inner : Environment τ α) (outer : Environment σ α) (view : τ → σ) :
    Prop where
  command : ∀ h t, outer.command h (view t) = ((inner.command h t).1, view (inner.command h t).2)
  sleep : ∀ d t, outer.sleep d (view t) = view (inner.sleep d t)
  now : ∀ t, outer.now (view t) = inner.now t
  cancelled : ∀ t, outer.cancelled (view t) = inner.cancelled t
  latestTime? : ∀ t, outer.latestTime? (view t) = inner.latestTime? t
  slopeSince? : ∀ since t, outer.slopeSince? since (view t) = inner.slopeSince? since t

theorem Environment.observed_views (env : Environment σ α) :
    env.observed.Views env Observed.state where
  command _ _ := rfl
  sleep _ _ := rfl
  now _ := rfl
  cancelled _ := rfl
  latestTime? _ := rfl
  slopeSince? _ _ := rfl

def Progress.view (view : τ → σ) (p : Progress τ α) : Progress σ α :=
  ⟨view p.state, p.points, p.stopped⟩

private theorem Progress.unlessStopped_view {view : τ → σ} {f : Progress τ α → Progress τ α}
    {g : Progress σ α → Progress σ α} (same : ∀ p, (f p).view view = g (p.view view))
    (p : Progress τ α) : (unlessStopped f p).view view = unlessStopped g (p.view view) := by
  rw [unlessStopped, unlessStopped]
  change _ = if p.stopped.isSome then _ else _
  split
  · rfl
  · exact same p

variable [Scalar α] {inner : Environment τ α} {outer : Environment σ α} {view : τ → σ}

/-- Induction on the waiting itself: each slice leaves both environments with a view of the other. -/
theorem waitUntil_view (views : inner.Views outer view) (plan : Plan α) (start d : Nat) (t : τ) :
    waitUntil plan outer start d (view t) =
      ((waitUntil plan inner start d t).1, view (waitUntil plan inner start d t).2) := by
  induction t using waitUntil.induct plan inner start d with
  | case1 t cancelled =>
    rw [waitUntil.eq_def plan outer, waitUntil.eq_def plan inner, views.cancelled, if_pos cancelled,
      if_pos cancelled]
  | case2 t going done =>
    rw [waitUntil.eq_def plan outer, waitUntil.eq_def plan inner, views.cancelled, views.now,
      if_neg going, if_neg going, if_pos done, if_pos done]
  | case3 t going short slice ih =>
    rw [waitUntil.eq_def plan outer, waitUntil.eq_def plan inner, views.cancelled, views.now,
      if_neg going, if_neg going, if_neg short, if_neg short]
    dsimp only
    rw [views.sleep]
    exact ih

namespace Progress

omit [Scalar α] in
private theorem switch_view (views : inner.Views outer view) (stage : Stage) (h : Heaters)
    (p : Progress τ α) : (p.switch inner stage h).view view = (p.view view).switch outer stage h := by
  apply unlessStopped_view
  intro p
  simp only [Progress.view, views.command]
  rcases inner.command h p.state with ⟨e | ⟨⟩, t⟩
  · rfl
  · rfl

private theorem wait_view (views : inner.Views outer view) (plan : Plan α) (stage : Stage) (d : Duration)
    (p : Progress τ α) :
    (p.wait plan inner stage d).view view = (p.view view).wait plan outer stage d := by
  apply unlessStopped_view
  intro p
  simp only [Progress.view, views.now, waitUntil_view views]
  rcases waitUntil plan inner (inner.now p.state) d p.state with ⟨_ | _, t⟩
  · rfl
  · rfl

private theorem measure_view (views : inner.Views outer view) (plan : Plan α) (stage : Stage) (d : Duration)
    (power : α) (p : Progress τ α) :
    (p.measure plan inner stage d power).view view =
      (p.view view).measure plan outer stage d power := by
  apply unlessStopped_view
  intro p
  dsimp only
  rw [← wait_view views]
  apply unlessStopped_view
  intro q
  let since := (outer.latestTime? (view p.state)).getD 0
  change _ = (⟨view q.state, q.points ++ [⟨(outer.slopeSince? since (view q.state)).getD 0, power⟩],
    q.stopped⟩ : Progress σ α)
  dsimp only [since]
  rw [views.latestTime?, views.slopeSince?]
  rfl

private theorem runHeater_view (views : inner.Views outer view) (plan : Plan α) (p : Progress τ α) (n : Nat) :
    (p.runHeater plan inner n).view view = (p.view view).runHeater plan outer n := by
  rw [runHeater, wait_view views, switch_view views, measure_view views, switch_view views]
  rfl

end Progress

private theorem sequence_view (views : inner.Views outer view) (plan : Plan α) (t : τ) :
    (sequence plan inner t).view view = sequence plan outer (view t) := by
  have all (order : List Nat) (p : Progress τ α) :
      (order.foldl (Progress.runHeater plan inner) p).view view =
        order.foldl (Progress.runHeater plan outer) (p.view view) := by
    induction order generalizing p with
    | nil => rfl
    | cons n rest ih =>
      rw [List.foldl_cons, List.foldl_cons, ← Progress.runHeater_view views]
      exact ih _
  rw [sequence, all, Progress.measure_view views, Progress.switch_view views]
  rfl

private theorem run_view (views : inner.Views outer view) (plan : Plan α) (t : τ) :
    run plan outer (view t) = ((run plan inner t).1, view (run plan inner t).2) := by
  rw [run, run, ← sequence_view views]
  generalize sequence plan inner t = p
  simp only [Progress.view, views.command]
  cases p.stopped with
  | some reason => rfl
  | none =>
    dsimp only
    cases Table.ofPoints (Table.sorted p.points) <;> rfl

/-- A run is the same whether it is observed or not. -/
theorem run_observed (plan : Plan α) (env : Environment σ α) (s : σ) :
    let observed := run plan env.observed ⟨s, []⟩
    run plan env s = (observed.1, observed.2.state) :=
  run_view env.observed_views plan ⟨s, []⟩

end Calorimetry.Calibration
