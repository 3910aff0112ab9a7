import Calorimetry.Queue
import Calorimetry.Scalar
import Calorimetry.Source

/-! Block averaging in front of a source: every `n` consecutive samples become one, which carries
their means and the time of the last. What is left when the stream ends makes a last, shorter
block; an error leaves the block begun as it is. -/

namespace Calorimetry

structure Averaged (σ α : Type) where
  inner : σ
  block : Queue (Sample α) := {}
  ended : Bool := false

namespace Averaged
variable {σ α : Type} [Scalar α]

def meanOf (field : Sample α → α) (block : List (Sample α)) : α :=
  (block.map field).foldl (· + ·) 0 / (block.length : α)

def mean? (block : List (Sample α)) : Option (Sample α) :=
  block.getLast?.map fun last =>
    ⟨last.time, meanOf Sample.reading block, meanOf Sample.voltage block,
      meanOf Sample.heaterPower block⟩

/-- Reads until the block has so many samples more, the stream ends or a read fails. -/
def fill (source : Source σ α) (timeout : Duration) :
    Nat → Averaged σ α → Except HardwareError Unit × Averaged σ α
  | 0, a => (.ok (), a)
  | missing + 1, a =>
    if a.ended then (.ok (), a)
    else match source.read timeout a.inner with
      | (.error e, inner) => (.error e, { a with inner := inner })
      | (.ok none, inner) => (.ok (), { a with inner := inner, ended := true })
      | (.ok (some s), inner) =>
        fill source timeout missing { a with inner := inner, block := a.block.push s }

/-- Blocks of none or one pass samples through. -/
def read (source : Source σ α) (n : Nat) (timeout : Duration) (a : Averaged σ α) :
    Read α × Averaged σ α :=
  if n ≤ 1 then
    let (r, inner) := source.read timeout a.inner
    (r, { a with inner := inner })
  else match fill source timeout (n - a.block.length) a with
    | (.error e, a) => (.error e, a)
    | (.ok (), a) => (.ok (mean? a.block.toList), { a with block := {} })

end Averaged

def Source.averaged {σ α : Type} [Scalar α] (source : Source σ α) (n : Nat) :
    Source (Averaged σ α) α := ⟨Averaged.read source n⟩

end Calorimetry
