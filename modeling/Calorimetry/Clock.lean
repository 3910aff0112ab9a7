import Calorimetry.Duration

/-! A clock that moves only when it is told to. -/

namespace Calorimetry

/-- All the time the clock was told to pass. What it shows stops at `Duration.limit`. -/
structure Clock where
  total : Nat := 0
  deriving DecidableEq

namespace Clock

def elapsed (c : Clock) : Duration := min c.total Duration.limit

def advance (c : Clock) (d : Duration) : Clock := ⟨c.total + d⟩

def since (c : Clock) (epoch : Duration) : Duration := c.elapsed - epoch

end Clock
end Calorimetry
