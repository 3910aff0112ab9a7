import Calorimetry.Error
import Calorimetry.Sample

/-! Where samples come from. A read waits at most a given time and gives a sample, the end of the
stream or an error, after which it may be tried again. -/

namespace Calorimetry

/-- `none` is the end of the stream. -/
abbrev Read (α : Type) := Except HardwareError (Option (Sample α))

structure Source (σ α : Type) where
  read : Duration → σ → Read α × σ

def Source.readMany {σ α : Type} (source : Source σ α) (timeout : Duration) :
    Nat → σ → List (Read α) × σ
  | 0, s => ([], s)
  | n + 1, s =>
    let (first, s) := source.read timeout s
    let (rest, s) := source.readMany timeout n s
    (first :: rest, s)

/-- Fixed answers, one for each read, and the end of the stream after the last one. -/
abbrev Script (α : Type) := List (Read α)

def Script.read {α : Type} (_ : Duration) : Script α → Read α × Script α
  | [] => (.ok none, [])
  | r :: rest => (r, rest)

def Script.source {α : Type} : Source (Script α) α := ⟨Script.read⟩

def Script.ofSamples {α : Type} (samples : List (Sample α)) : Script α :=
  samples.map fun s => .ok (some s)

end Calorimetry
