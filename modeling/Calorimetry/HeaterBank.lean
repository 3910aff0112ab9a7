import Calorimetry.Settings

/-! Heater banks: something that is given the wanted state of all three heaters and accepts or
refuses it. A refused command changes nothing that can be seen. -/

namespace Calorimetry

abbrev Commanded (σ : Type) := Except HardwareError Unit × σ

/-- Keeps a list of what it accepted, oldest first, and refuses to switch on one chosen heater. -/
structure RecordingBank where
  accepted : List Heaters := []
  failOn : Option Nat := none
  deriving DecidableEq

namespace RecordingBank

def current (b : RecordingBank) : Heaters := b.accepted.getLast?.getD Heaters.off

def refuses (b : RecordingBank) (h : Heaters) : Bool := (b.failOn.bind h.get?) = some true

def command (b : RecordingBank) (h : Heaters) : Commanded RecordingBank :=
  if b.refuses h then
    (.error (.other s!"heater {b.failOn.getD 0} did not respond"), b)
  else (.ok (), { b with accepted := b.accepted ++ [h] })

end RecordingBank

/-- The bank of the simulated head. `switchOns` counts the commands that switch something on, and
the one with the number `failOn` is refused. -/
structure SimulatedBank where
  heaters : Heaters := Heaters.off
  connected : Bool := true
  switchOns : Nat := 0
  failOn : Option Nat := none
  deriving DecidableEq

namespace SimulatedBank

def command (b : SimulatedBank) (h : Heaters) : Commanded SimulatedBank :=
  if !b.connected then (.error .disconnected, b)
  else if h.anyOn then
    let n := b.switchOns + 1
    if b.failOn = some n then
      (.error (.rejected s!"switch-on command {n} refused"), { b with switchOns := n })
    else (.ok (), { b with heaters := h, switchOns := n })
  else (.ok (), { b with heaters := h })

end SimulatedBank
end Calorimetry
