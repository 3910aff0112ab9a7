import Calorimetry.Error
import Calorimetry.Scalar

/-! Settings of a measurement and of a calibration sequence, and which of them are refused. -/

namespace Calorimetry

structure PerHeater (β : Type) where
  first : β
  second : β
  third : β
  deriving DecidableEq

namespace PerHeater

def count : Nat := 3

def toList {β : Type} (h : PerHeater β) : List β := [h.first, h.second, h.third]

def ofList? {β : Type} : List β → Option (PerHeater β)
  | [a, b, c] => some ⟨a, b, c⟩
  | _ => none

/-- Value of heater `n`, counted from 1. -/
def get? {β : Type} (h : PerHeater β) (n : Nat) : Option β :=
  if n = 0 then none else h.toList[n - 1]?

end PerHeater

abbrev Heaters := PerHeater Bool

namespace Heaters

def off : Heaters := ⟨false, false, false⟩

def only (n : Nat) : Heaters := ⟨n == 1, n == 2, n == 3⟩

def anyOn (h : Heaters) : Bool := h.first || h.second || h.third

end Heaters

variable {α : Type} [Scalar α]

/-- `span` is how long samples are kept. Rates above `threshold` (V/s) are heating; a pulse goes on
over at most `gap` samples, and over one at least; shorter ones than `minimum` are noise. Readings
off the fitted line by more than `outlierFactor` times the spread are left out of a fit. -/
structure MeterSettings (α : Type) [Scalar α] where
  span : Duration := Duration.ofSeconds 10
  threshold : α := 0.001
  minimum : Duration := Duration.ofSeconds 1
  gap : Nat := 2
  outlierFactor : α := 3.0
  deriving DecidableEq

namespace MeterSettings

/-- Farthest distance in samples at which the end of a pulse can still move. -/
def reach (c : MeterSettings α) : Nat := max 1 c.gap

def fault? (c : MeterSettings α) : Option ConfigError :=
  if c.span = 0 then some (.nonPositive "window")
  else if !Scalar.isPositive c.threshold then some (.nonPositive "pulse_threshold")
  else if !Scalar.isPositive c.outlierFactor then some (.nonPositive "outlier_k")
  else none

end MeterSettings

/-- Times of the phases of a calibration, the order in which heaters are switched on (counted from
1), their resistances (Ω) and the supply voltage. While waiting, cancellation is looked for every
`poll`. -/
structure SequenceSettings (α : Type) [Scalar α] where
  baseline : Duration := Duration.ofSeconds 10
  heater : Duration := Duration.ofSeconds 2
  cooloff : Duration := Duration.ofSeconds 20
  poll : Duration := Duration.ofMillis 50
  order : List Nat := [1, 2, 3]
  resistances : PerHeater α := ⟨2300.0, 500.0, 200.0⟩
  voltage : α := 5.0
  deriving DecidableEq

namespace SequenceSettings

def orderFault? (seen : List Nat) : List Nat → Option ConfigError
  | [] => none
  | h :: rest =>
    if h = 0 || PerHeater.count < h then
      some (.heaterSequence s!"heater {h} out of range 1..={PerHeater.count}")
    else if seen.contains h then some (.heaterSequence s!"heater {h} repeated")
    else orderFault? (h :: seen) rest

def fault? (c : SequenceSettings α) : Option ConfigError :=
  if c.baseline = 0 then some (.nonPositive "baseline")
  else if c.heater = 0 then some (.nonPositive "heater")
  else if c.cooloff = 0 then some (.nonPositive "cooloff")
  else if c.poll = 0 then some (.nonPositive "poll")
  else if !Scalar.isPositive c.voltage then some (.nonPositive "supply_voltage")
  else if c.resistances.toList.any (!Scalar.isPositive ·) then
    some (.nonPositive "heater resistance")
  else orderFault? [] c.order

/-- Power (mW) of a resistance across a voltage. -/
def dissipated (voltage resistance : α) : α := 1000.0 * voltage * voltage / resistance

end SequenceSettings
end Calorimetry
