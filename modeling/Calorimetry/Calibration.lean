import Calorimetry.HeaterBank
import Calorimetry.Table

/-! The calibration sequence: the drift with all heaters off, then each heater in turn with a
cooloff after it. Each phase yields the slope of a pulse that began in it, and the heaters are
switched off at the end whatever happened. -/

namespace Calorimetry.Calibration

inductive Stage where
  | baseline
  | heater (n : Nat)
  | cooloff (n : Nat)
  | assembly
  deriving DecidableEq

def Stage.message : Stage → String
  | baseline => "baseline"
  | heater n => s!"heater {n}"
  | cooloff n => s!"cooloff after heater {n}"
  | assembly => "table assembly"

inductive Cause where
  | device (e : DeviceError)
  | cancelled
  | table (e : ConfigError)
  deriving DecidableEq

def Cause.message : Cause → String
  | device e => e.message
  | cancelled => "calibration cancelled"
  | table e => e.message

/-- Where a run stopped and why, with the points it has, in the order of a table. -/
structure Aborted (α : Type) where
  stage : Stage
  cause : Cause
  collected : List (Point α)
  deriving DecidableEq

def Aborted.message {α : Type} (a : Aborted α) : String :=
  s!"calibration aborted during {a.stage.message}: {a.cause.message}"

structure Plan (α : Type) [Scalar α] where
  settings : SequenceSettings α
  sound : settings.fault? = none

/-- What a run acts on and asks: a heater bank, a clock, a cancel flag, and the meter. Everything that
can change is in the state `σ`, the time too, so the clock does not move between two readings with
nothing done in between. All that is demanded is `now_lt_sleep`, that sleeping takes time, by which
`waitUntil` comes to an end. -/
structure Environment (σ α : Type) where
  command : Heaters → σ → Commanded σ
  sleep : Duration → σ → σ
  now : σ → Nat
  cancelled : σ → Bool
  latestTime? : σ → Option Duration
  slopeSince? : Duration → σ → Option α
  now_lt_sleep : ∀ d s, 0 < d → now s < now (sleep d s)

/-- How far a run has come. Once it has stopped nothing more is done. -/
structure Progress (σ α : Type) where
  state : σ
  points : List (Point α) := []
  stopped : Option (Stage × Cause) := none

variable {σ α : Type} [Scalar α]

def Plan.ofSettings (c : SequenceSettings α) : Except ConfigError (Plan α) :=
  match h : c.fault? with
  | none => .ok ⟨c, h⟩
  | some e => .error e

theorem Plan.poll_pos (plan : Plan α) : 0 < plan.settings.poll := by
  have sound := plan.sound
  simp only [SequenceSettings.fault?] at sound
  split at sound <;> try contradiction
  split at sound <;> try contradiction
  split at sound <;> try contradiction
  split at sound <;> try contradiction
  next h => exact Nat.pos_of_ne_zero h

def Plan.power (plan : Plan α) (n : Nat) : α :=
  SequenceSettings.dissipated plan.settings.voltage ((plan.settings.resistances.get? n).getD 0)

/-- Sleeps in slices until `d` has passed since `start`, and tells whether it was cancelled. -/
def waitUntil (plan : Plan α) (env : Environment σ α) (start d : Nat) (s : σ) : Bool × σ :=
  if env.cancelled s then (true, s)
  else if d ≤ env.now s - start then (false, s)
  else
    let slice := min (d - (env.now s - start)) plan.settings.poll
    waitUntil plan env start d (env.sleep slice s)
termination_by start + d - env.now s
decreasing_by
  rename_i short
  have positive : 0 < min (d - (env.now s - start)) plan.settings.poll :=
    Nat.lt_min.mpr ⟨Nat.sub_pos_of_lt (Nat.lt_of_not_le short), plan.poll_pos⟩
  have later := env.now_lt_sleep _ s positive
  omega

namespace Progress

def stop (p : Progress σ α) (stage : Stage) (cause : Cause) : Progress σ α :=
  { p with stopped := some (stage, cause) }

def unlessStopped (f : Progress σ α → Progress σ α) (p : Progress σ α) : Progress σ α :=
  if p.stopped.isSome then p else f p

def switch (env : Environment σ α) (stage : Stage) (h : Heaters) : Progress σ α → Progress σ α :=
  unlessStopped fun p =>
    match env.command h p.state with
    | (.ok (), s) => { p with state := s }
    | (.error e, s) => { p with state := s }.stop stage (.device (.ofHardware e))

def wait (plan : Plan α) (env : Environment σ α) (stage : Stage) (d : Duration) :
    Progress σ α → Progress σ α :=
  unlessStopped fun p =>
    match waitUntil plan env (env.now p.state) d p.state with
    | (true, s) => { p with state := s }.stop stage .cancelled
    | (false, s) => { p with state := s }

/-- Waits and notes the slope of the latest pulse begun meanwhile, or 0 without one. -/
def measure (plan : Plan α) (env : Environment σ α) (stage : Stage) (d : Duration) (power : α) :
    Progress σ α → Progress σ α :=
  unlessStopped fun p =>
    let since := (env.latestTime? p.state).getD 0
    let note (p : Progress σ α) : Progress σ α :=
      { p with points := p.points ++ [⟨(env.slopeSince? since p.state).getD 0, power⟩] }
    unlessStopped note (p.wait plan env stage d)

def runHeater (plan : Plan α) (env : Environment σ α) (p : Progress σ α) (n : Nat) :
    Progress σ α :=
  p.switch env (.heater n) (Heaters.only n)
    |>.measure plan env (.heater n) plan.settings.heater (plan.power n)
    |>.switch env (.heater n) Heaters.off
    |>.wait plan env (.cooloff n) plan.settings.cooloff

end Progress

def sequence (plan : Plan α) (env : Environment σ α) (s : σ) : Progress σ α :=
  let resting := (Progress.mk s [] none).switch env .baseline Heaters.off
    |>.measure plan env .baseline plan.settings.baseline 0
  plan.settings.order.foldl (Progress.runHeater plan env) resting

/-- Runs the sequence and forces the heaters off; whether that succeeds is not looked at. -/
def run (plan : Plan α) (env : Environment σ α) (s : σ) : Except (Aborted α) (Table α) × σ :=
  let p := sequence plan env s
  let (_, s) := env.command Heaters.off p.state
  let collected := Table.sorted p.points
  match p.stopped with
  | some (stage, cause) => (.error ⟨stage, cause, collected⟩, s)
  | none =>
    match Table.ofPoints collected with
    | .ok table => (.ok table, s)
    | .error e => (.error ⟨.assembly, .table e, collected⟩, s)

end Calorimetry.Calibration
