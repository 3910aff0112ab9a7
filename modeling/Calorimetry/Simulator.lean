import Calorimetry.Clock
import Calorimetry.HeaterBank
import Calorimetry.Source

/-! A simulated sensor head: a first-order lag towards a temperature set by the heaters and a
pulsed laser, sampled at a fixed period on its own clock. -/

namespace Calorimetry

variable {α : Type} [Scalar α]

/-- Powers are in mW and readings in V. A laser without power or period is off, and its first shot
comes one period after the start. `voltsPerMilliwatt` is the rise of the resting reading per
absorbed milliwatt. -/
structure SimulatorSettings (α : Type) [Scalar α] where
  period : Duration := Duration.ofMillis 100
  bias : α := 0
  noise : α := 0.00002
  laserPower : α := 40.0
  laserDuration : Duration := Duration.ofSeconds 2
  laserPeriod : Duration := Duration.ofSeconds 20
  voltsPerMilliwatt : α := 0.001
  timeConstant : Duration := Duration.ofSeconds 2
  voltage : α := 5.0
  resistances : PerHeater α := ⟨2300.0, 500.0, 200.0⟩
  maxSamples : Option Nat := none

namespace SimulatorSettings

def heaterPower (c : SimulatorSettings α) (h : Heaters) : α :=
  let burning := (h.toList.zip c.resistances.toList).filter Prod.fst
  Scalar.sum (burning.map fun p => SequenceSettings.dissipated c.voltage p.2)

def laserOn (c : SimulatorSettings α) (t : Duration) : Bool :=
  if c.laserPeriod = 0 || Scalar.le c.laserPower 0 || t < c.laserPeriod then false
  else t % c.laserPeriod < c.laserDuration

/-- Repeatable noise between -1 and 1. -/
def noiseAt (t : Duration) : α :=
  let ms := t.seconds * 1000.0
  0.5 * (Scalar.sin (ms * 0.917) + Scalar.cos (ms * 1.313))

/-- Share of the way to the target that one period covers. -/
def approach (c : SimulatorSettings α) : α :=
  let tau : α := c.timeConstant.seconds
  if Scalar.lt 0 tau then
    let ratio := c.period.seconds / tau
    if Scalar.lt ratio 1.0 then ratio else 1.0
  else 1.0

def target (c : SimulatorSettings α) (h : Heaters) (t : Duration) : α :=
  let laser := if c.laserOn t then c.laserPower else 0
  c.bias + (c.heaterPower h + laser) * c.voltsPerMilliwatt

end SimulatorSettings

/-- `next` is when the next sample is due and `produced` counts those delivered. -/
structure SimulatedHead (α : Type) [Scalar α] where
  settings : SimulatorSettings α
  temperature : α
  bank : SimulatedBank := {}
  clock : Clock := {}
  next : Duration := 0
  produced : Nat := 0

namespace SimulatedHead

def start (c : SimulatorSettings α) : SimulatedHead α := { settings := c, temperature := c.bias }

def exhausted (h : SimulatedHead α) : Bool :=
  match h.settings.maxSamples with
  | some n => n ≤ h.produced
  | none => false

def untilNext (h : SimulatedHead α) : Duration := h.next - h.clock.elapsed

def advance (h : SimulatedHead α) (d : Duration) : SimulatedHead α :=
  { h with clock := h.clock.advance d }

def deliver (h : SimulatedHead α) : Sample α × SimulatedHead α :=
  let c := h.settings
  let heaters := h.bank.heaters
  let temperature := h.temperature + c.approach * (c.target heaters h.next - h.temperature)
  let sample := {
    time := h.next
    reading := temperature + SimulatorSettings.noiseAt h.next * c.noise
    voltage := if heaters.anyOn then c.voltage else 0
    heaterPower := c.heaterPower heaters / 1000.0 }
  (sample, { h with
    temperature := temperature
    next := h.next + c.period
    produced := h.produced + 1 })

/-- Waits until the next sample is due. If that is beyond the timeout it waits out the timeout, and
the sample stays due; so it does without a connection. -/
def read (timeout : Duration) (h : SimulatedHead α) : Read α × SimulatedHead α :=
  if h.exhausted then (.ok none, h)
  else if timeout < h.untilNext then (.error .timeout, h.advance timeout)
  else
    let h := h.advance h.untilNext
    if h.bank.connected then
      let (s, h) := h.deliver
      (.ok (some s), h)
    else (.error .disconnected, h)

def source : Source (SimulatedHead α) α := ⟨read⟩

def command (h : SimulatedHead α) (heaters : Heaters) : Commanded (SimulatedHead α) :=
  let (r, bank) := h.bank.command heaters
  (r, { h with bank := bank })

/-- Reads after which a stream of limited length has surely ended, if each waits for `timeout`. -/
def readsToEnd (h : SimulatedHead α) (timeout : Duration) : Nat :=
  (h.settings.maxSamples.getD 0 + 1) * (h.settings.period / timeout + 2)

end SimulatedHead
end Calorimetry
