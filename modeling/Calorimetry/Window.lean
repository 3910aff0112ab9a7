import Calorimetry.Error
import Calorimetry.Queue
import Calorimetry.Sample

/-! The trailing window of samples with the rate of change between neighbours. Times in the window
increase strictly, there is one rate between each two samples, and a sample that is a whole span
older than the newest one has left. A rate is worked out once, when the later one of its samples
comes in, and leaves together with the earlier one. -/

namespace Calorimetry

/-- Rate `i` of those `derived` is the slope from sample `i` to sample `i + 1`. -/
structure Window (α : Type) where
  span : Duration
  recorded : Queue (Sample α) := {}
  derived : Queue α := {}
  deriving DecidableEq

namespace Window
variable {α : Type}

def samples (w : Window α) : List (Sample α) := w.recorded.toList

def rates (w : Window α) : List α := w.derived.toList

def size (w : Window α) : Nat := w.recorded.length

def newest? (w : Window α) : Option (Sample α) := w.recorded.getLast?

def oldest? (w : Window α) : Option (Sample α) := w.recorded.head?

/-- Number of samples stamped before `t`, which is the position of the first one that is not. -/
def lowerBound (w : Window α) (t : Duration) : Nat :=
  (w.recorded.takeWhile fun s => s.time < t).length

def indexOf? (w : Window α) (t : Duration) : Option Nat := Sample.indexOf? w.samples t

/-- Number of samples that are a span or more older than `latest`; before one span has passed
there is none. -/
def expired (w : Window α) (latest : Duration) : Nat :=
  if w.span ≤ latest then (w.recorded.takeWhile fun s => s.time ≤ latest - w.span).length else 0

/-- As many rates go as samples, or all of them if there are fewer. -/
def dropOldest (w : Window α) (n : Nat) : Window α :=
  { w with recorded := w.recorded.drop n, derived := w.derived.drop n }

def countAfter? (w : Window α) (t : Duration) : Option Nat :=
  w.recorded.reverse.findIdx? fun s => s.time = t

/-- The samples from the one stamped `start` to the one stamped `stop`, and the rates between them,
if both are there. An end before the start leaves nothing. -/
def between? (w : Window α) (start stop : Duration) : Option (List (Sample α) × List α) :=
  match w.countAfter? start, w.countAfter? stop with
  | some afterStart, some afterStop =>
    some (((w.recorded.reverse.take (afterStart + 1)).drop afterStop).reverse,
      ((w.derived.reverse.take afterStart).drop afterStop).reverse)
  | _, _ => none

def lastTwo? (w : Window α) : Option (Sample α × Sample α) :=
  match w.recorded.reverse.take 2 with
  | [b, a] => some (a, b)
  | _ => none

def latestRate? (w : Window α) : Option α := w.derived.getLast?

variable [Scalar α]

@[inline] def rateBetween (a b : Sample α) : α :=
  (b.reading - a.reading) / Duration.secondsBetween a.time b.time

/-- Why `s` cannot follow the samples at hand, if so. The value is looked at before the time. -/
def anomaly? (w : Window α) (s : Sample α) : Option Anomaly :=
  if !Scalar.isFinite s.reading then some (.nonFinite s.time)
  else match w.newest? with
    | none => none
    | some last =>
      if s.time = last.time then some (.duplicate s.time)
      else if s.time < last.time then some (.outOfOrder last.time s.time)
      else none

/-- The window with `s` at its end and nothing dropped. A first sample has no rate. -/
def extend (w : Window α) (s : Sample α) : Window α :=
  { w with
    recorded := w.recorded.push s
    derived := match w.newest? with
      | none => w.derived
      | some last => w.derived.push (rateBetween last s) }

/-- Takes a sample in; the number tells how many old ones left. -/
def push (w : Window α) (s : Sample α) : Except Anomaly (Window α × Nat) :=
  match w.anomaly? s with
  | some a => .error a
  | none =>
    let longer := w.extend s
    let n := longer.expired s.time
    .ok (longer.dropOldest n, n)

def clear (w : Window α) : Window α := { span := w.span }

theorem samples_extend (w : Window α) (s : Sample α) :
    (w.extend s).samples = w.samples ++ [s] := Queue.toList_push _ _

omit [Scalar α]

theorem samples_dropOldest (w : Window α) (n : Nat) :
    (w.dropOldest n).samples = w.samples.drop n := Queue.toList_drop _ _

theorem rates_dropOldest (w : Window α) (n : Nat) :
    (w.dropOldest n).rates = w.rates.drop n := Queue.toList_drop _ _

theorem latestRate?_eq (w : Window α) : w.latestRate? = w.rates.getLast? :=
  (Queue.getLast?_toList _).symm

theorem newest?_eq (w : Window α) : w.newest? = w.samples.getLast? :=
  (Queue.getLast?_toList _).symm

theorem oldest?_eq (w : Window α) : w.oldest? = w.samples.head? := (Queue.head?_toList _).symm

theorem countAfter?_eq (w : Window α) (t : Duration) :
    w.countAfter? t = w.samples.reverse.findIdx? fun s => s.time = t := by
  rw [countAfter?, ← Queue.findIdx?_toList, Queue.toList_reverse, samples]

theorem expired_eq (w : Window α) (latest : Duration) :
    w.expired latest =
      if w.span ≤ latest then (w.samples.takeWhile fun s => s.time ≤ latest - w.span).length else 0 := by
  rw [expired, ← Queue.takeWhile_toList, samples]

theorem between?_eq_some (w : Window α) {start stop : Duration} {i j : Nat}
    (foundStart : w.countAfter? start = some i) (foundStop : w.countAfter? stop = some j) :
    w.between? start stop = some (((w.samples.reverse.take (i + 1)).drop j).reverse,
      ((w.rates.reverse.take i).drop j).reverse) := by
  rw [between?, foundStart, foundStop, samples, rates, ← Queue.toList_reverse, ← Queue.toList_reverse,
    Queue.take_toList, Queue.take_toList]

theorem lastTwo?_eq_some (w : Window α) (a b : Sample α) :
    w.lastTwo? = some (a, b) ↔ ∃ older, w.samples = older ++ [a, b] := by
  rw [lastTwo?, ← Queue.take_toList, Queue.toList_reverse, ← samples]
  constructor
  · intro taken
    split at taken
    · next two =>
      cases taken
      have split := List.take_append_drop 2 w.samples.reverse
      rw [two] at split
      exact ⟨_, by simpa using (congrArg List.reverse split).symm⟩
    · contradiction
  · rintro ⟨older, eq⟩
    simp [eq]

end Window
end Calorimetry
