import Calorimetry.Calibration
import Calorimetry.Session
import Calorimetry.Simulator
import Calorimetry.Source.Averaged

/-! A bench on which a calibration runs in virtual time: sleeping lets the simulated head deliver
what falls due meanwhile, and incidents come in at set times. -/

namespace Calorimetry

/-- Which bank the commands go to. A scripted one answers a command with the error given for it,
and passes the others on to the simulated head. -/
inductive BenchBank where
  | simulated
  | recording (bank : RecordingBank)
  | scripted (answers : List (Option HardwareError))

inductive Incident (α : Type) where
  | cancel
  | disconnect
  | connect
  | ingest (s : Sample α)
  | clear

/-- `log` holds every command with the time it was given and its answer, oldest first. -/
structure Workbench (α : Type) [Scalar α] where
  source : Averaged (SimulatedHead α) α
  average : Nat := 0
  session : Session α
  bank : BenchBank := .simulated
  incidents : List (Duration × Incident α) := []
  cancelled : Bool := false
  log : List (Duration × Heaters × Except HardwareError Unit) := []

namespace Workbench
variable {α : Type} [Scalar α]

def head (w : Workbench α) : SimulatedHead α := w.source.inner

def setHead (w : Workbench α) (h : SimulatedHead α) : Workbench α :=
  { w with source := { w.source with inner := h } }

def setConnected (w : Workbench α) (on : Bool) : Workbench α :=
  w.setHead { w.head with bank := { w.head.bank with connected := on } }

def obey (h : Heaters) (w : Workbench α) : Commanded (Workbench α) :=
  let toHead (w : Workbench α) : Commanded (Workbench α) :=
    let (r, head) := w.head.command h
    (r, w.setHead head)
  match w.bank with
  | .simulated => toHead w
  | .recording b =>
    let (r, b) := b.command h
    (r, { w with bank := .recording b })
  | .scripted (some e :: rest) => (.error e, { w with bank := .scripted rest })
  | .scripted (none :: rest) => toHead { w with bank := .scripted rest }
  | .scripted [] => toHead w

def command (h : Heaters) (w : Workbench α) : Commanded (Workbench α) :=
  let (r, after) := w.obey h
  (r, { after with log := after.log ++ [(w.head.clock.elapsed, h, r)] })

/-- Reads and takes in samples until a read at the given deadline gives none, with at most so many
reads. -/
def takeIn (deadline : Nat) : Nat → Workbench α → Workbench α
  | 0, w => w
  | reads + 1, w =>
    let left := deadline - w.head.clock.total
    match (SimulatedHead.source.averaged w.average).read left w.source with
    | (.ok (some s), source) =>
      takeIn deadline reads { w with source := source, session := w.session.ingest s }
    | (_, source) => { w with source := source }

/-- More than the reads that a head can answer up to the deadline. -/
def readsUntil (deadline : Nat) (w : Workbench α) : Nat :=
  let c := w.head.settings
  if c.period = 0 then c.maxSamples.getD 0 + 2 else deadline / c.period + 3

def advance (d : Duration) (w : Workbench α) : Workbench α := w.setHead (w.head.advance d)

def undergo (w : Workbench α) : Incident α → Workbench α
  | .cancel => { w with cancelled := true }
  | .disconnect => w.setConnected false
  | .connect => w.setConnected true
  | .ingest s => { w with session := w.session.ingest s }
  | .clear => { w with session := w.session.clear }

def undergoDue (w : Workbench α) : Workbench α :=
  let due := w.incidents.takeWhile fun i => i.1 ≤ w.head.clock.elapsed
  (due.map Prod.snd).foldl undergo { w with incidents := w.incidents.drop due.length }

def sleep (d : Duration) (w : Workbench α) : Workbench α :=
  let deadline := w.head.clock.total + d
  let served := takeIn deadline (w.readsUntil deadline) w
  (served.advance (deadline - served.head.clock.total)).undergoDue

private theorem undergo_clock (w : Workbench α) (i : Incident α) :
    (w.undergo i).head.clock = w.head.clock := by cases i <;> rfl

private theorem undergo_all_clock (due : List (Incident α)) (w : Workbench α) :
    (due.foldl undergo w).head.clock = w.head.clock := by
  induction due generalizing w with
  | nil => rfl
  | cons i due ih => rw [List.foldl_cons, ih, undergo_clock]

theorem sleep_clock_ge (d : Duration) (w : Workbench α) :
    w.head.clock.total + d ≤ (w.sleep d).head.clock.total := by
  simp only [sleep, undergoDue, undergo_all_clock]
  simp only [head, advance, setHead, SimulatedHead.advance, Clock.advance]
  omega

def environment : Calibration.Environment (Workbench α) α where
  command := command
  sleep := sleep
  now w := w.head.clock.total
  cancelled w := w.cancelled
  latestTime? w := w.session.meter.latestTime?
  slopeSince? since w := w.session.meter.slopeSince? since
  now_lt_sleep d w positive :=
    Nat.lt_of_lt_of_le (Nat.lt_add_of_pos_right positive) (sleep_clock_ge d w)

/-- So many runs one after another, each on what the one before left. -/
def runs (plan : Calibration.Plan α) :
    Nat → Workbench α → List (Except (Calibration.Aborted α) (Table α)) × Workbench α
  | 0, w => ([], w)
  | n + 1, w =>
    let (outcome, w) := Calibration.run plan environment w
    let (rest, w) := runs plan n w
    (outcome :: rest, w)

end Workbench
end Calorimetry
