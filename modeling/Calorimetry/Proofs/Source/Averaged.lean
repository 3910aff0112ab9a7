import Calorimetry.Proofs.Acquisition

/-! What averaging makes of the answers of a source. A read of the averaged source hears some samples of the
source behind it, and then a block is whole, or the source gives an error, or it is at its end. Read after
read, no sample gets lost between blocks and none is averaged twice. -/

namespace Calorimetry
variable {σ α : Type}

namespace Read

def error? : Read α → Option HardwareError
  | .error e => some e
  | .ok _ => none

def samples (answers : List (Read α)) : List (Sample α) := answers.filterMap sample?

def errors (answers : List (Read α)) : List HardwareError := answers.filterMap error?

private theorem samples_append (first second : List (Read α)) :
    samples (first ++ second) = samples first ++ samples second := List.filterMap_append

private theorem errors_append (first second : List (Read α)) :
    errors (first ++ second) = errors first ++ errors second := List.filterMap_append

end Read

namespace Source

/-- The source with a list of all answers that it has given. -/
def logged (source : Source σ α) : Source (σ × List (Read α)) α where
  read timeout s :=
    let (r, after) := source.read timeout s.1
    (r, after, s.2 ++ [r])

/-- The states of one source, looked at through `view`, are read as those of the other. -/
def Views {τ : Type} (inner : Source τ α) (outer : Source σ α) (view : τ → σ) : Prop :=
  ∀ timeout t, outer.read timeout (view t) = ((inner.read timeout t).1, view (inner.read timeout t).2)

private theorem logged_read {source : Source σ α} {timeout : Duration} {s after : σ} {r : Read α}
    (read : source.read timeout s = (r, after)) (log : List (Read α)) :
    source.logged.read timeout (s, log) = (r, after, log ++ [r]) := by
  simp only [logged, read]

/-- The answers to reads with these timeouts, and the source after them. -/
def readAll (source : Source σ α) : List Duration → σ → List (Read α) × σ
  | [], s => ([], s)
  | timeout :: later, s =>
    let (first, s) := source.read timeout s
    let (rest, s) := source.readAll later s
    (first :: rest, s)

private theorem Views.readAll {τ : Type} {inner : Source τ α} {outer : Source σ α} {view : τ → σ}
    (views : inner.Views outer view) (timeouts : List Duration) (t : τ) :
    outer.readAll timeouts (view t) =
      ((inner.readAll timeouts t).1, view (inner.readAll timeouts t).2) := by
  induction timeouts generalizing t with
  | nil => rfl
  | cons timeout later ih =>
    simp only [Source.readAll, views timeout t, ih]

end Source

namespace Averaged

/-! ## Blocks of a longer list -/

/-- What comes after some samples goes on with what they have left over. -/
theorem blocks_append_eq {n : Nat} (positive : 0 < n) (xs ys : List (Sample α)) :
    blocks n (xs ++ ys) = blocks n xs ++ blocks n (remainder n xs ++ ys) ∧
      remainder n (xs ++ ys) = remainder n (remainder n xs ++ ys) := by
  induction whole : xs.length / n generalizing xs with
  | zero =>
    have short : xs.length < n := by
      rcases Nat.div_eq_zero_iff.mp whole with none | short
      · omega
      · exact short
    obtain ⟨none, all⟩ := blocks_of_lt short
    rw [none, all]
    exact ⟨rfl, rfl⟩
  | succ k ih =>
    have long : n ≤ xs.length := by
      apply Nat.le_of_not_lt
      intro short
      rw [Nat.div_eq_of_lt short] at whole
      contradiction
    have full : (xs.take n).length = n := List.length_take_of_le long
    have fewer : (xs.drop n).length / n = k := by
      rw [Nat.div_eq_sub_div positive long] at whole
      rw [List.length_drop]
      exact Nat.succ.inj whole
    obtain ⟨here, left⟩ := blocks_append full positive (xs.drop n)
    obtain ⟨there, left'⟩ := blocks_append full positive (xs.drop n ++ ys)
    obtain ⟨later, rest⟩ := ih (xs.drop n) fewer
    rw [List.take_append_drop] at here left
    rw [← List.append_assoc, List.take_append_drop] at there left'
    rw [there, left', here, left, later, rest]
    exact ⟨rfl, rfl⟩

private theorem blocks_nil {n : Nat} (positive : 0 < n) :
    blocks n ([] : List (Sample α)) = [] ∧ remainder n ([] : List (Sample α)) = [] :=
  blocks_of_lt positive

private theorem blocks_of_length_eq {n : Nat} {block : List (Sample α)} (full : block.length = n)
    (positive : 0 < n) : blocks n block = [block] ∧ remainder n block = [] := by
  obtain ⟨one, rest⟩ := blocks_append full positive []
  obtain ⟨none, nothing⟩ := blocks_nil positive
  rw [List.append_nil] at one rest
  exact ⟨one.trans (congrArg _ none), rest.trans nothing⟩

/-! ## One read -/

section
variable [Scalar α]

/-- With `held` in the block begun, a read hears this from the source behind, gives an answer, and leaves
something in the block. The flag tells whether it came to the end of the stream. -/
inductive Burst (n : Nat) (held : List (Sample α)) :
    List (Read α) → Read α → List (Sample α) → Bool → Prop
  | whole (xs : List (Sample α)) (full : (held ++ xs).length = n) :
      Burst n held (Script.ofSamples xs) (.ok (mean? (held ++ xs))) [] false
  | fails (xs : List (Sample α)) (e : HardwareError) (short : (held ++ xs).length < n) :
      Burst n held (Script.ofSamples xs ++ [.error e]) (.error e) (held ++ xs) false
  | ends (xs : List (Sample α)) (short : (held ++ xs).length < n) :
      Burst n held (Script.ofSamples xs ++ [.ok none]) (.ok (mean? (held ++ xs))) [] true

private theorem Burst.cons {n : Nat} {held left : List (Sample α)} {x : Sample α} {burst : List (Read α)}
    {r : Read α} {ended : Bool} (later : Burst n (held ++ [x]) burst r left ended) :
    Burst n held (.ok (some x) :: burst) r left ended := by
  cases later with
  | whole xs full =>
    rw [List.append_assoc] at full ⊢
    exact .whole (x :: xs) full
  | fails xs e short =>
    rw [List.append_assoc] at short ⊢
    exact .fails (x :: xs) e short
  | ends xs short =>
    rw [List.append_assoc] at short ⊢
    exact .ends (x :: xs) short

variable {n : Nat}

/-- Induction on what is missing from the block. After each sample the read goes on as one that finds it in the
block would begin. -/
private theorem read_bursts (source : Source σ α) (timeout : Duration) (several : 1 < n) (missing : Nat) (s : σ)
    (log : List (Read α)) (block : Queue (Sample α)) (short : block.length < n)
    (room : n ≤ block.length + missing) :
    let r := (source.logged.averaged n).read timeout { inner := (s, log), block := block }
    ∃ burst, r.2.inner.2 = log ++ burst ∧ Burst n block.toList burst r.1 r.2.block.toList r.2.ended ∧
      (r.2.ended = true → r.2.block = {}) := by
  induction missing generalizing s log block with
  | zero => exact absurd short (Nat.not_lt_of_le room)
  | succ missing ih =>
    have next : n - block.length = n - block.length - 1 + 1 := by omega
    have held : (block.toList ++ []).length < n := by rwa [List.append_nil, Queue.length_toList]
    rcases heard : source.read timeout s with ⟨e | _ | x, after⟩
    · have burst := Burst.fails [] e held
      rw [List.append_nil] at burst
      rw [read_of_error several next (Source.logged_read heard log)]
      exact ⟨_, rfl, burst, fun ended => absurd ended Bool.false_ne_true⟩
    · have burst := Burst.ends [] held
      rw [List.append_nil] at burst
      rw [read_of_end several next (Source.logged_read heard log)]
      exact ⟨_, rfl, burst, fun _ => rfl⟩
    · have read := Source.logged_read heard log
      by_cases last : block.length + 1 = n
      · have whole : (block.toList ++ [x]).length = n := by
          rw [List.length_append, Queue.length_toList]
          exact last
        have one : n - block.length = 0 + 1 := by omega
        have burst := Burst.whole [x] whole
        rw [← Queue.toList_push] at burst
        rw [read_of_sample several one read]
        exact ⟨_, rfl, burst, fun ended => absurd ended Bool.false_ne_true⟩
      · have longer := length_push block x
        have left : n - (block.push x).length = n - block.length - 1 := by omega
        obtain ⟨burst, log', later, flushed⟩ :=
          ih after (log ++ [.ok (some x)]) (block.push x) (by omega) (by omega)
        rw [Queue.toList_push] at later
        rw [read_of_sample several next read, ← read_several several left]
        exact ⟨_, log'.trans (List.append_assoc ..), later.cons, flushed⟩

end

/-! ## Read after read -/

section
open Read (samples errors samples_append errors_append)

private theorem samples_ofSamples (xs : List (Sample α)) : samples (Script.ofSamples xs) = xs := by
  rw [samples, Script.ofSamples, List.filterMap_map]
  exact List.filterMap_some

private theorem errors_ofSamples (xs : List (Sample α)) : errors (Script.ofSamples xs) = [] := by
  rw [errors, Script.ofSamples, List.filterMap_map, List.filterMap_eq_nil_iff]
  exact fun _ _ => rfl

private theorem end_notMem_ofSamples (xs : List (Sample α)) : .ok none ∉ Script.ofSamples xs := by
  simp [Script.ofSamples]

private theorem split_of_no_error {heard burst before after : List (Read α)} {e : HardwareError}
    (quiet : errors burst = []) (parted : heard ++ burst = before ++ .error e :: after) :
    ∃ between, heard = before ++ .error e :: between := by
  have none : .error e ∉ burst := by
    intro member
    have told := List.filterMap_eq_nil_iff.mp quiet _ member
    contradiction
  rcases List.append_eq_append_iff.mp parted with ⟨more, _, same⟩ | ⟨more, same, rest⟩
  · rw [same] at none
    exact absurd (List.mem_append_right more List.mem_cons_self) none
  · cases more with
    | nil =>
      rw [List.nil_append] at rest
      rw [← rest] at none
      exact absurd List.mem_cons_self none
    | cons r between =>
      obtain ⟨rfl, _⟩ := List.cons.inj rest
      exact ⟨between, same⟩

variable [Scalar α]

private theorem samples_mean (block : List (Sample α)) : samples [.ok (mean? block)] = [block].filterMap mean? := by
  cases averaged : mean? block with
  | none => simp [samples, Read.sample?, averaged]
  | some average => simp [samples, Read.sample?, averaged]

/-- What was told is what was heard, in blocks of `n`, with `held` in the block that has begun. -/
structure Conserves (n : Nat) (heard told : List (Read α)) (held : List (Sample α)) (ended : Bool) :
    Prop where
  /-- The samples told are the means of the blocks heard, and of what is left over at the end. -/
  means_eq : Read.samples told = (blocks n (Read.samples heard) ++
    if ended then [remainder n (Read.samples heard)] else []).filterMap mean?
  errors_eq : Read.errors told = Read.errors heard
  /-- What was told up to an error is what was heard up to it. -/
  in_place : ∀ before e after, heard = before ++ .error e :: after →
    ∃ earlier later, told = earlier ++ .error e :: later ∧
      Read.errors earlier = Read.errors before ∧
      Read.samples earlier = (blocks n (Read.samples before)).filterMap mean?
  /-- What is held is what is left over, until the end. -/
  held_eq : held = if ended then [] else remainder n (Read.samples heard)
  few : held.length < n
  end_last : ended = true → ∃ before, heard = before ++ [.ok none] ∧ .ok none ∉ before
  goes_on : ended = false → .ok none ∉ heard ∧ .ok none ∉ told

namespace Conserves
variable {n : Nat} {heard told : List (Read α)} {held xs : List (Sample α)}

private theorem nil (positive : 0 < n) : Conserves n ([] : List (Read α)) [] [] false where
  means_eq := by
    rw [samples, List.filterMap_nil, (blocks_nil positive).1]
    rfl
  errors_eq := rfl
  in_place before e after parted := absurd parted.symm (by simp)
  held_eq := (blocks_nil positive).2.symm
  few := positive
  end_last impossible := absurd impossible Bool.false_ne_true
  goes_on _ := ⟨List.not_mem_nil, List.not_mem_nil⟩

private theorem past_end (conserves : Conserves n heard told held true) :
    Conserves n heard (told ++ [.ok none]) held true where
  means_eq := by
    rw [samples_append, conserves.means_eq]
    exact List.append_nil _
  errors_eq := by
    rw [errors_append, conserves.errors_eq]
    exact List.append_nil _
  in_place before e after parted := by
    obtain ⟨earlier, later, split, rest⟩ := conserves.in_place before e after parted
    exact ⟨earlier, later ++ [.ok none], by rw [split, List.append_assoc]; rfl, rest⟩
  held_eq := conserves.held_eq
  few := conserves.few
  end_last := conserves.end_last
  goes_on impossible := absurd impossible.symm Bool.false_ne_true

variable (conserves : Conserves n heard told held false)
include conserves

private theorem means_of_going : samples told = (blocks n (samples heard)).filterMap mean? :=
  conserves.means_eq.trans (congrArg _ (List.append_nil _))

private theorem heard_more (positive : 0 < n) (xs : List (Sample α)) :
    blocks n (samples (heard ++ Script.ofSamples xs)) = blocks n (samples heard) ++ blocks n (held ++ xs) ∧
      remainder n (samples (heard ++ Script.ofSamples xs)) = remainder n (held ++ xs) := by
  have begun : held = remainder n (samples heard) := conserves.held_eq
  rw [samples_append, samples_ofSamples, begun]
  exact blocks_append_eq positive (samples heard) xs

private theorem in_place_of_no_error {burst : List (Read α)} (quiet : errors burst = []) (r : Read α)
    (before : List (Read α)) (e : HardwareError) (after : List (Read α))
    (parted : heard ++ burst = before ++ .error e :: after) :
    ∃ earlier later, told ++ [r] = earlier ++ .error e :: later ∧ errors earlier = errors before ∧
      samples earlier = (blocks n (samples before)).filterMap mean? := by
  obtain ⟨between, split⟩ := split_of_no_error quiet parted
  obtain ⟨earlier, later, split, same⟩ := conserves.in_place before e between split
  exact ⟨earlier, later ++ [r], by rw [split, List.append_assoc]; rfl, same⟩

private theorem whole (positive : 0 < n) (full : (held ++ xs).length = n) :
    Conserves n (heard ++ Script.ofSamples xs) (told ++ [.ok (mean? (held ++ xs))]) [] false := by
  obtain ⟨one, nothing⟩ := blocks_of_length_eq full positive
  obtain ⟨more, left⟩ := conserves.heard_more positive xs
  rw [one] at more
  rw [nothing] at left
  obtain ⟨going, untold⟩ := conserves.goes_on rfl
  obtain ⟨average, averaged⟩ := mean?_of_ne_nil (List.ne_nil_of_length_pos (full ▸ positive))
  refine ⟨?_, ?_, conserves.in_place_of_no_error (errors_ofSamples xs) _, left.symm, positive,
    fun impossible => absurd impossible Bool.false_ne_true, fun _ => ⟨?_, ?_⟩⟩
  · rw [more, samples_append, conserves.means_of_going, samples_mean, ← List.filterMap_append]
    exact congrArg _ (List.append_nil _).symm
  · rw [errors_append, errors_append, conserves.errors_eq, errors_ofSamples]
    rfl
  · simpa [end_notMem_ofSamples] using going
  · simpa [averaged] using untold

private theorem fails (e : HardwareError) (short : (held ++ xs).length < n) :
    Conserves n (heard ++ (Script.ofSamples xs ++ [.error e])) (told ++ [.error e]) (held ++ xs) false := by
  obtain ⟨nothing, all⟩ := blocks_of_lt short
  obtain ⟨more, left⟩ := conserves.heard_more (Nat.zero_lt_of_lt short) xs
  rw [nothing, List.append_nil] at more
  rw [all] at left
  obtain ⟨going, untold⟩ := conserves.goes_on rfl
  have quiet : errors (heard ++ Script.ofSamples xs) = errors heard := by
    rw [errors_append, errors_ofSamples, List.append_nil]
  have silent : samples (heard ++ Script.ofSamples xs ++ [.error e]) =
      samples (heard ++ Script.ofSamples xs) := by
    rw [samples_append]
    exact List.append_nil _
  rw [← List.append_assoc]
  refine ⟨?_, ?_, ?_, ?_, short, fun impossible => absurd impossible Bool.false_ne_true,
    fun _ => ⟨?_, ?_⟩⟩
  · rw [silent, more, samples_append, conserves.means_of_going]
    exact (List.append_nil _).trans (congrArg _ (List.append_nil _).symm)
  · rw [errors_append, errors_append, conserves.errors_eq, quiet]
  · -- The new error comes behind all that was told, and any other one was in its place before.
    intro before e' after parted
    rcases List.eq_nil_or_concat' after with rfl | ⟨middle, last, rfl⟩
    · obtain ⟨same, ⟨⟩⟩ := List.append_inj' parted rfl
      refine ⟨told, [], rfl, ?_, ?_⟩
      · rw [← same, quiet, conserves.errors_eq]
      · rw [← same, more, conserves.means_of_going]
    · rw [← List.cons_append, ← List.append_assoc] at parted
      obtain ⟨parted, _⟩ := List.append_inj' parted rfl
      exact conserves.in_place_of_no_error (errors_ofSamples xs) _ before e' middle parted
  · rw [silent, left]
    rfl
  · simpa [end_notMem_ofSamples] using going
  · simpa using untold

private theorem ends (short : (held ++ xs).length < n) :
    Conserves n (heard ++ (Script.ofSamples xs ++ [.ok none])) (told ++ [.ok (mean? (held ++ xs))]) []
      true := by
  obtain ⟨nothing, all⟩ := blocks_of_lt short
  obtain ⟨more, left⟩ := conserves.heard_more (Nat.zero_lt_of_lt short) xs
  rw [nothing, List.append_nil] at more
  rw [all] at left
  obtain ⟨going, _⟩ := conserves.goes_on rfl
  have quiet : errors (Script.ofSamples xs ++ [.ok none]) = [] := by
    rw [errors_append, errors_ofSamples]
    rfl
  have silent : samples (heard ++ (Script.ofSamples xs ++ [.ok none])) =
      samples (heard ++ Script.ofSamples xs) := by
    rw [← List.append_assoc, samples_append]
    exact List.append_nil _
  refine ⟨?_, ?_, conserves.in_place_of_no_error quiet _, rfl, Nat.zero_lt_of_lt short, fun _ => ?_,
    fun impossible => absurd impossible.symm Bool.false_ne_true⟩
  · rw [silent, more, left, samples_append, conserves.means_of_going, samples_mean,
      ← List.filterMap_append]
    rfl
  · rw [errors_append, errors_append, conserves.errors_eq, quiet]
    rfl
  · refine ⟨heard ++ Script.ofSamples xs, (List.append_assoc ..).symm, ?_⟩
    simpa [end_notMem_ofSamples] using going

private theorem extend (positive : 0 < n) {answers : List (Read α)} {r : Read α} {left : List (Sample α)}
    {ended : Bool} (burst : Burst n held answers r left ended) :
    Conserves n (heard ++ answers) (told ++ [r]) left ended := by
  cases burst with
  | whole xs full => exact conserves.whole positive full
  | fails xs e short => exact conserves.fails e short
  | ends xs short => exact conserves.ends short

end Conserves

variable {source : Source σ α} {n : Nat}

/-- What averaging has told of what it has heard, and that nothing is in the block once it is at the end. -/
structure Keeps (n : Nat) (told : List (Read α)) (a : Averaged (σ × List (Read α)) α) : Prop where
  conserves : Conserves n a.inner.2 told a.block.toList a.ended
  flushed : a.ended = true → a.block = {}

private theorem Keeps.read (source : Source σ α) (several : 1 < n) {told : List (Read α)}
    {a : Averaged (σ × List (Read α)) α} (keeps : Keeps n told a) (timeout : Duration) :
    let r := (source.logged.averaged n).read timeout a
    Keeps n (told ++ [r.1]) r.2 := by
  obtain ⟨⟨s, log⟩, block, ended⟩ := a
  obtain ⟨conserves, flushed⟩ := keeps
  cases ended with
  | true =>
    obtain rfl : block = {} := flushed rfl
    rw [read_ended several]
    exact ⟨conserves.past_end, flushed⟩
  | false =>
    have short : block.length < n := by
      rw [← Queue.length_toList]
      exact conserves.few
    have room : n ≤ block.length + n := Nat.le_add_left _ _
    obtain ⟨burst, heard, bursts, flushed⟩ := read_bursts source timeout several n s log block short room
    refine ⟨?_, flushed⟩
    rw [heard]
    exact conserves.extend (Nat.zero_lt_of_lt several) bursts

private theorem Keeps.readAll (source : Source σ α) (several : 1 < n) (timeouts : List Duration)
    {told : List (Read α)} {a : Averaged (σ × List (Read α)) α} (keeps : Keeps n told a) :
    let all := (source.logged.averaged n).readAll timeouts a
    Keeps n (told ++ all.1) all.2 := by
  induction timeouts generalizing told a with
  | nil =>
    change Keeps n (told ++ []) a
    rw [List.append_nil]
    exact keeps
  | cons timeout later ih =>
    have rest := ih (keeps.read source several timeout)
    dsimp only at rest
    rw [List.append_assoc] at rest
    exact rest

section
variable {τ : Type} {inner : Source τ α} {outer : Source σ α} {view : τ → σ}

end

end

namespace Interrupted

/-- An error comes within each of two blocks, and the second one is not whole at the end. -/
def script : Script Float :=
  [.ok (some (.plain 0 1.0)), .error .timeout, .ok (some (.plain 1 2.0)), .ok (some (.plain 2 3.0)),
    .ok (some (.plain 3 5.0)), .error .timeout, .ok none, .ok (some (.plain 4 0.0))]

def told : List (Read Float) :=
  [.error .timeout, .ok (some (.plain 2 2.0)), .error .timeout, .ok (some (.plain 3 5.0)), .ok none]

end Interrupted

end Averaged
end Calorimetry
