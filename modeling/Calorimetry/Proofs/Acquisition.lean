import Calorimetry.Acquisition
import Calorimetry.Source.Averaged
import Mathlib.Data.List.Basic

/-! What comes of an acquisition. A source that is read until it stops gives some samples, whatever
timeouts come in between, and an acquisition from it is the processing of these samples. Averaging is a
source that gives the means of the blocks of what the source behind it gives. -/

namespace Calorimetry
variable {σ α : Type}

/-- How a stream of samples comes to its end. -/
inductive Stop where
  | ended
  | failed
  deriving DecidableEq

namespace Read

def sample? : Read α → Option (Sample α)
  | .ok x => x
  | .error _ => none

def timedOut : Read α → Bool
  | .ok _ => false
  | .error e => DeviceError.ofHardware e = .timeout

def stop? : Read α → Option Stop
  | .ok none => some .ended
  | .ok (some _) => none
  | .error e => if DeviceError.ofHardware e = .timeout then none else some .failed

private theorem stop?_of_timedOut (r : Read α) (timedOut : r.timedOut = true) : r.stop? = none := by
  cases r with
  | error e => exact if_pos (of_decide_eq_true timedOut)
  | ok x => cases timedOut

private theorem sample?_of_timedOut (r : Read α) (timedOut : r.timedOut = true) : r.sample? = none := by
  cases r with
  | error e => rfl
  | ok x => cases timedOut

end Read

namespace Script

/-- The samples before the first answer that means a stop. -/
def heard (script : Script α) : List (Sample α) :=
  (script.takeWhile (·.stop?.isNone)).filterMap Read.sample?

/-- Past its last answer a script is at the end of the stream. -/
def stop (script : Script α) : Stop := (script.findSome? Read.stop?).getD .ended

end Script

namespace Source

/-- Read until it stops, and again after each timeout, the source gives these samples and stops so. -/
inductive Gives (source : Source σ α) (timeout : Duration) : σ → List (Sample α) → Stop → Prop
  | ends {s after : σ} (read : source.read timeout s = (.ok none, after)) :
      Gives source timeout s [] .ended
  | fails {s after : σ} {e : HardwareError} (read : source.read timeout s = (.error e, after))
      (fatal : DeviceError.ofHardware e ≠ .timeout) : Gives source timeout s [] .failed
  | waits {s after : σ} {e : HardwareError} {xs : List (Sample α)} {stop : Stop}
      (read : source.read timeout s = (.error e, after)) (timedOut : DeviceError.ofHardware e = .timeout)
      (later : Gives source timeout after xs stop) : Gives source timeout s xs stop
  | hears {s after : σ} {x : Sample α} {xs : List (Sample α)} {stop : Stop}
      (read : source.read timeout s = (.ok (some x), after))
      (later : Gives source timeout after xs stop) : Gives source timeout s (x :: xs) stop

variable {source : Source σ α} {timeout : Duration} {s t : σ} {xs : List (Sample α)} {stop : Stop}

private theorem Gives.of_read_eq (gives : source.Gives timeout t xs stop)
    (same : source.read timeout s = source.read timeout t) : source.Gives timeout s xs stop := by
  cases gives with
  | ends read => exact .ends (same.trans read)
  | fails read fatal => exact .fails (same.trans read) fatal
  | waits read timedOut later => exact .waits (same.trans read) timedOut later
  | hears read later => exact .hears (same.trans read) later

end Source

namespace Script

private theorem heard_of_stop? {r : Read α} {stop : Stop} (stops : r.stop? = some stop) (rest : Script α) :
    heard (r :: rest) = [] := by
  rw [heard, List.takeWhile_cons_of_neg (by simp [stops]), List.filterMap_nil]

private theorem stop_of_stop? {r : Read α} {stop : Stop} (stops : r.stop? = some stop) (rest : Script α) :
    Script.stop (r :: rest) = stop := by
  rw [Script.stop, List.findSome?_cons_of_isSome (by simp [stops]), stops, Option.getD_some]

private theorem stop_of_none {r : Read α} (goesOn : r.stop? = none) (rest : Script α) :
    stop (r :: rest) = stop rest := by
  rw [stop, List.findSome?_cons_of_isNone (by simp [goesOn]), stop]

private theorem heard_of_timedOut {r : Read α} (timedOut : r.timedOut = true) (rest : Script α) :
    heard (r :: rest) = heard rest ∧ stop (r :: rest) = stop rest := by
  have goesOn := r.stop?_of_timedOut timedOut
  refine ⟨?_, stop_of_none goesOn rest⟩
  rw [heard, List.takeWhile_cons_of_pos (by simp [goesOn]), List.filterMap_cons,
    r.sample?_of_timedOut timedOut]
  rfl

private theorem gives (timeout : Duration) (script : Script α) :
    source.Gives timeout script script.heard script.stop := by
  induction script with
  | nil => exact .ends rfl
  | cons r rest ih =>
    rcases r with e | _ | x
    · by_cases timedOut : DeviceError.ofHardware e = .timeout
      · obtain ⟨heard, stop⟩ := heard_of_timedOut (r := .error e) (decide_eq_true timedOut) rest
        rw [heard, stop]
        exact .waits rfl timedOut ih
      · have stops : Read.stop? (.error e : Read α) = some .failed := if_neg timedOut
        rw [heard_of_stop? stops, stop_of_stop? stops]
        exact .fails rfl timedOut
    · exact .ends rfl
    · exact .hears rfl ih

private theorem heard_filter (script : Script α) :
    heard (script.filter (!·.timedOut)) = script.heard ∧ stop (script.filter (!·.timedOut)) = script.stop := by
  induction script with
  | nil => exact ⟨rfl, rfl⟩
  | cons r rest ih =>
    obtain ⟨sameHeard, sameStop⟩ := ih
    cases timedOut : r.timedOut with
    | true =>
      obtain ⟨heard, stop⟩ := heard_of_timedOut timedOut rest
      rw [List.filter_cons_of_neg (by simp [timedOut]), heard, stop]
      exact ⟨sameHeard, sameStop⟩
    | false =>
      rw [List.filter_cons_of_pos (by simp [timedOut])]
      cases stops : r.stop? with
      | some stop =>
        rw [heard_of_stop? stops, heard_of_stop? stops, stop_of_stop? stops, stop_of_stop? stops]
        exact ⟨rfl, rfl⟩
      | none =>
        rw [stop_of_none stops, stop_of_none stops, heard, heard,
          List.takeWhile_cons_of_pos (by simp [stops]), List.takeWhile_cons_of_pos (by simp [stops]),
          List.filterMap_cons, List.filterMap_cons]
        rw [heard, heard] at sameHeard
        rw [sameHeard]
        exact ⟨rfl, sameStop⟩

end Script

namespace Averaged

/-- The consecutive blocks of `n`, without what is left over. -/
def blocks (n : Nat) (xs : List (Sample α)) : List (List (Sample α)) :=
  (List.range (xs.length / n)).map fun k => (xs.drop (k * n)).take n

def remainder (n : Nat) (xs : List (Sample α)) : List (Sample α) := xs.drop (xs.length / n * n)

theorem blocks_of_lt {n : Nat} {block : List (Sample α)} (short : block.length < n) :
    blocks n block = [] ∧ remainder n block = block := by
  rw [blocks, remainder, Nat.div_eq_of_lt short, Nat.zero_mul]
  exact ⟨rfl, rfl⟩

theorem blocks_append {n : Nat} {block : List (Sample α)} (full : block.length = n) (positive : 0 < n)
    (later : List (Sample α)) : blocks n (block ++ later) = block :: blocks n later ∧
      remainder n (block ++ later) = remainder n later := by
  have more : (block ++ later).length / n = later.length / n + 1 := by
    rw [List.length_append, full, Nat.add_comm, Nat.add_div_right _ positive]
  have past (k : Nat) : (block ++ later).drop ((k + 1) * n) = later.drop (k * n) := by
    rw [Nat.add_one_mul, Nat.add_comm, ← full, List.drop_length_add_append]
  constructor
  · rw [blocks, more, List.range_succ_eq_map, List.map_cons, List.map_map]
    congr 1
    · rw [Nat.zero_mul, List.drop_zero, ← full, List.take_left]
    · exact List.map_congr_left fun k _ => by rw [Function.comp_apply, past]
  · rw [remainder, more, past, remainder]

variable [Scalar α]

/-- The means of the blocks of `n`. What is left over is a last block, unless the stream fails. -/
def means (n : Nat) (xs : List (Sample α)) (stop : Stop) : List (Sample α) :=
  (blocks n xs ++ if stop = .ended then [remainder n xs] else []).filterMap mean?

private theorem means_append {n : Nat} {block : List (Sample α)} {average : Sample α} (full : block.length = n)
    (positive : 0 < n) (averaged : mean? block = some average) (later : List (Sample α)) (stop : Stop) :
    means n (block ++ later) stop = average :: means n later stop := by
  obtain ⟨whole, rest⟩ := blocks_append full positive later
  rw [means, whole, rest, List.cons_append, List.filterMap_cons, averaged, means]

theorem mean?_of_ne_nil {block : List (Sample α)} (begun : block ≠ []) :
    ∃ average, mean? block = some average := by
  rw [mean?, List.getLast?_eq_some_getLast begun]
  exact ⟨_, rfl⟩

variable {source : Source σ α} {timeout : Duration} {n : Nat} {s after : σ} {xs : List (Sample α)}
  {stop : Stop}

private theorem gives_of_le_one (single : n ≤ 1) (gives : source.Gives timeout s xs stop)
    (block : Queue (Sample α)) (ended : Bool) :
    (source.averaged n).Gives timeout ⟨s, block, ended⟩ xs stop := by
  have passes {s after : σ} {r : Read α} (read : source.read timeout s = (r, after)) :
      (source.averaged n).read timeout ⟨s, block, ended⟩ = (r, ⟨after, block, ended⟩) := by
    change Averaged.read source n timeout ⟨s, block, ended⟩ = _
    rw [Averaged.read, if_pos single, read]
  induction gives with
  | ends read => exact .ends (passes read)
  | fails read fatal => exact .fails (passes read) fatal
  | waits read timedOut _ ih => exact .waits (passes read) timedOut ih
  | hears read _ ih => exact .hears (passes read) ih

omit [Scalar α] in
theorem length_push (block : Queue (Sample α)) (x : Sample α) :
    (block.push x).length = block.length + 1 := by
  rw [← Queue.length_toList, Queue.toList_push, List.length_append, Queue.length_toList]
  rfl

section Read

variable {block : Queue (Sample α)} {x : Sample α} {e : HardwareError} {missing : Nat}

def answer : Except HardwareError Unit × Averaged σ α → Read α × Averaged σ α
  | (.error e, a) => (.error e, a)
  | (.ok (), a) => (.ok (mean? a.block.toList), { a with block := {} })

theorem read_several (several : 1 < n) (room : n - block.length = missing) (ended : Bool) :
    (source.averaged n).read timeout ⟨s, block, ended⟩ =
      answer (fill source timeout missing ⟨s, block, ended⟩) := by
  change Averaged.read source n timeout ⟨s, block, ended⟩ = _
  rw [Averaged.read, if_neg (Nat.not_le_of_lt several), room]
  rcases fill source timeout missing ⟨s, block, ended⟩ with ⟨e | u, filled⟩
  · rfl
  · rfl

theorem read_of_error (several : 1 < n) (room : n - block.length = missing + 1)
    (read : source.read timeout s = (.error e, after)) :
    (source.averaged n).read timeout { inner := s, block := block } =
      (.error e, { inner := after, block := block }) := by
  rw [read_several several room, fill, if_neg Bool.false_ne_true, read]
  rfl

theorem read_of_end (several : 1 < n) (room : n - block.length = missing + 1)
    (read : source.read timeout s = (.ok none, after)) :
    (source.averaged n).read timeout { inner := s, block := block } =
      (.ok (mean? block.toList), { inner := after, ended := true }) := by
  rw [read_several several room, fill, if_neg Bool.false_ne_true, read]
  rfl

theorem read_ended (several : 1 < n) :
    (source.averaged n).read timeout { inner := s, ended := true } =
      (.ok none, { inner := s, ended := true }) := by
  obtain ⟨missing, rfl⟩ := Nat.exists_eq_add_of_lt several
  rw [read_several several rfl]
  rfl

theorem read_of_sample (several : 1 < n) (room : n - block.length = missing + 1)
    (read : source.read timeout s = (.ok (some x), after)) :
    (source.averaged n).read timeout { inner := s, block := block } =
      answer (fill source timeout missing { inner := after, block := block.push x }) := by
  rw [read_several several room, fill, if_neg Bool.false_ne_true, read]

end Read

/-- What is averaged are the samples in the block begun and those that come. -/
private theorem gives_means (several : 1 < n) (gives : source.Gives timeout s xs stop) (block : Queue (Sample α))
    (short : block.length < n) :
    (source.averaged n).Gives timeout { inner := s, block := block } (means n (block.toList ++ xs) stop)
      stop := by
  have room {block : Queue (Sample α)} (short : block.length < n) :
      n - block.length = n - block.length - 1 + 1 := by omega
  have partly {block : Queue (Sample α)} (short : block.length < n) :
      blocks n block.toList = [] ∧ remainder n block.toList = block.toList :=
    blocks_of_lt (by rwa [Queue.length_toList])
  -- Any block may have been begun: from one whole block to the next it takes several reads of the source.
  induction gives generalizing block with
  | @ends s after read =>
    have given := read_of_end several (room short) read
    have ended : (source.averaged n).Gives timeout { inner := after, ended := true } [] .ended :=
      .ends (read_ended several)
    obtain ⟨none, rest⟩ := partly short
    rw [List.append_nil, means, none, rest, List.nil_append, if_pos rfl, List.filterMap_cons]
    cases averaged : mean? block.toList with
    | none =>
      rw [averaged] at given
      exact .ends given
    | some average =>
      rw [averaged] at given
      exact .hears given ended
  | fails read fatal =>
    obtain ⟨none, _⟩ := partly short
    rw [List.append_nil, means, none]
    exact .fails (read_of_error several (room short) read) fatal
  | waits read timedOut _ ih =>
    exact .waits (read_of_error several (room short) read) timedOut (ih block short)
  | @hears s after x xs stop read later ih =>
    rw [List.append_cons, ← Queue.toList_push]
    by_cases whole : block.length + 1 = n
    · have full : (block.push x).toList.length = n := by rw [Queue.length_toList, length_push, whole]
      have begun : (block.push x).toList ≠ [] := List.ne_nil_of_length_pos (by omega)
      obtain ⟨average, averaged⟩ := mean?_of_ne_nil begun
      have last : n - block.length = 0 + 1 := by omega
      have given := read_of_sample several last read
      rw [fill, answer, averaged] at given
      rw [means_append full (by omega) averaged]
      exact .hears given (ih {} (Nat.lt_of_succ_lt several))
    · have shorter : (block.push x).length < n := by
        rw [length_push]
        omega
      have left : n - (block.push x).length = n - block.length - 1 := by rw [length_push, Nat.sub_sub]
      -- No answer yet: the read goes on as one that finds this sample in the block would begin.
      refine (ih (block.push x) shorter).of_read_eq ?_
      rw [read_of_sample several (room short) read, read_several several left]

end Averaged

namespace Acquisition
variable [Scalar α]

/-- Given enough reads the acquisition is finished, and that it has processed these samples is all that it
has done. -/
def Processes (source : Source σ α) (timeout : Duration) (a : Acquisition σ α) (xs : List (Sample α)) :
    Prop :=
  ∃ enough, ∀ reads, enough ≤ reads →
    ∃ state, run source timeout reads a = ⟨state, a.session.process xs, a.ingested + xs.length, true⟩

variable {source : Source σ α} {timeout : Duration} {s : σ} {xs : List (Sample α)} {stop : Stop}

private theorem run_of_finished (reads : Nat) {a : Acquisition σ α} (finished : a.finished = true) :
    run source timeout reads a = a := by
  cases reads with
  | zero => rfl
  | succ reads => exact if_pos finished

private theorem Processes.of_step {a next : Acquisition σ α} {ys : List (Sample α)} (begun : a.finished = false)
    (first : step source timeout a = next) (later : Processes source timeout next ys)
    (same : next.session.process ys = a.session.process xs)
    (counted : next.ingested + ys.length = a.ingested + xs.length) : Processes source timeout a xs := by
  obtain ⟨enough, finishes⟩ := later
  refine ⟨enough + 1, ?_⟩
  intro reads many
  obtain ⟨more, rfl⟩ := Nat.exists_eq_add_of_le' many
  rw [← Nat.add_assoc, run, begun, if_neg Bool.false_ne_true, first, ← same, ← counted]
  exact finishes (more + enough) (Nat.le_add_left _ _)

private theorem processes_nil {after : σ} {session : Session α} {ingested : Nat}
    (first : step source timeout { source := s, session := session, ingested := ingested } =
      ⟨after, session.shutdown, ingested, true⟩) :
    Processes source timeout { source := s, session := session, ingested := ingested } [] := by
  refine ⟨1, ?_⟩
  intro reads many
  obtain ⟨more, rfl⟩ := Nat.exists_eq_add_of_le' many
  refine ⟨after, ?_⟩
  rw [run, if_neg Bool.false_ne_true, first, run_of_finished more rfl]
  rfl

private theorem processes_of_gives (gives : source.Gives timeout s xs stop) (session : Session α) (ingested : Nat) :
    Processes source timeout { source := s, session := session, ingested := ingested } xs := by
  induction gives generalizing session ingested with
  | ends read => exact processes_nil (by rw [step, read])
  | fails read fatal => exact processes_nil (by rw [step, read]; exact if_neg fatal)
  | @waits s after e xs stop read timedOut _ ih =>
    have first : step source timeout { source := s, session := session, ingested := ingested } =
        { source := after, session := session, ingested := ingested } := by
      rw [step, read]
      exact if_pos timedOut
    exact (ih session ingested).of_step rfl first rfl rfl
  | @hears s after x xs stop read _ ih =>
    have first : step source timeout { source := s, session := session, ingested := ingested } =
        { source := after, session := session.ingest x, ingested := ingested + 1 } := by rw [step, read]
    exact (ih (session.ingest x) (ingested + 1)).of_step rfl first rfl (Nat.add_right_comm _ _ _)

end Acquisition

/-- An acquisition from a script that nobody stops comes to an end, and has then processed the samples
before the first end of the stream or failure, neither more nor fewer. With averaging these are the means
of their blocks, the last and shorter one included if the stream has not failed. Timeouts change nothing,
wherever they are put. -/
theorem acquisition_processes [Scalar α] (script : Script α) (timeout : Duration) (n : Nat)
    (session : Session α) (delayed : Script α)
    (same : delayed.filter (!·.timedOut) = script.filter (!·.timedOut)) :
    Acquisition.Processes Script.source timeout { source := delayed, session := session } script.heard ∧
      Acquisition.Processes (Script.source.averaged n) timeout
        { source := { inner := delayed }, session := session }
        (if n ≤ 1 then script.heard else Averaged.means n script.heard script.stop) := by
  have gives := Script.gives timeout delayed
  rw [← delayed.heard_filter.1, ← delayed.heard_filter.2, same, script.heard_filter.1,
    script.heard_filter.2] at gives
  refine ⟨Acquisition.processes_of_gives gives session 0, ?_⟩
  split
  · next single =>
    exact Acquisition.processes_of_gives (Averaged.gives_of_le_one single gives {} false) session 0
  · next several =>
    have averaged := Averaged.gives_means (Nat.lt_of_not_le several) gives {}
      (Nat.zero_lt_of_lt (Nat.lt_of_not_le several))
    exact Acquisition.processes_of_gives averaged session 0

namespace Delayed

-- What comes behind the end of the stream is never read.
def script : Script Float :=
  [.ok (some (.plain 0 1.0)), .ok (some (.plain 1 2.0)), .ok (some (.plain 2 4.0)), .ok none,
    .ok (some (.plain 3 0.0))]

/-- A timeout comes in front of each answer, so also within blocks. -/
def delayed : Script Float := script.flatMap fun r => [.error .timeout, r]

def session : Session Float := { meter := Meter.start {} Table.empty }

end Delayed

theorem acquisition_processes_delayed :
    Delayed.delayed.filter (!·.timedOut) = Delayed.script.filter (!·.timedOut) ∧
      Averaged.means 2 Delayed.script.heard Delayed.script.stop = [.plain 1 1.5, .plain 2 4.0] ∧
      Acquisition.Processes (Script.source.averaged 2) 0
        { source := { inner := Delayed.delayed }, session := Delayed.session }
        (Averaged.means 2 Delayed.script.heard Delayed.script.stop) := by
  have same : Delayed.delayed.filter (!·.timedOut) = Delayed.script.filter (!·.timedOut) := rfl
  refine ⟨same, by decide +kernel, ?_⟩
  exact (acquisition_processes Delayed.script 0 2 Delayed.session Delayed.delayed same).2

end Calorimetry
