import Calorimetry.Proofs.Window
import Calorimetry.Settings
import Mathlib.Data.List.SplitBy
import Mathlib.Data.List.Induction

/-! Heating read off a whole recording, with all its samples at hand. The steps with a rate above the
threshold are cut into groups wherever two of them are too far apart, and each group is an episode of
heating. One more sample then either changes nothing, or extends the last episode, or begins one. -/

namespace Calorimetry
variable {α : Type}

/-- The step of a recording that leads to the sample at `position` from the one before it. -/
structure Step (α : Type) where
  position : Nat
  before : Sample α
  after : Sample α

namespace Step

def rate [Scalar α] (s : Step α) : α := Window.rateBetween s.before s.after

def all (samples : List (Sample α)) : List (Step α) :=
  ((samples.zip samples.tail).zipIdx 1).map fun ((a, b), position) => ⟨position, a, b⟩

private theorem all_concat (samples : List (Sample α)) (a x : Sample α)
    (last : samples.getLast? = some a) :
    all (samples ++ [x]) = all samples ++ [⟨samples.length, a, x⟩] := by
  have nonempty : samples.length ≠ 0 := by
    intro none
    rw [List.length_eq_zero_iff.mp none] at last
    contradiction
  have zipped : (samples ++ [x]).zip (samples ++ [x]).tail =
      samples.zip samples.tail ++ [(a, x)] := by
    simp only [List.zip, Window.neighbours_concat, last, Option.map_some, Option.toList_some]
  rw [all, zipped, List.zipIdx_append, List.map_append, List.length_zip, List.length_tail]
  simp only [List.zipIdx_singleton, List.map_cons, List.map_nil, all]
  congr 3
  omega

private theorem position_of_all (samples : List (Sample α)) (s : Step α) (member : s ∈ all samples) :
    0 < s.position ∧ samples[s.position - 1]? = some s.before ∧
      samples[s.position]? = some s.after := by
  obtain ⟨⟨⟨a, b⟩, position⟩, present, rfl⟩ := List.mem_map.mp member
  rw [List.mem_zipIdx_iff_le_and_getElem?_sub, List.getElem?_zip_eq_some,
    List.getElem?_tail] at present
  obtain ⟨positive, first, second⟩ := present
  rw [Nat.sub_add_cancel positive] at second
  exact ⟨positive, first, second⟩

private theorem all_increasing (samples : List (Sample α)) :
    (all samples).Pairwise fun a b => a.position < b.position := by
  have positions : (all samples).map Step.position =
      List.range' 1 (samples.zip samples.tail).length := by
    rw [all, List.map_map]
    exact List.zipIdx_map_snd 1 _
  have increasing := List.pairwise_lt_range' (s := 1) (n := (samples.zip samples.tail).length)
  rw [← positions] at increasing
  exact List.pairwise_map.mp increasing

end Step

/-- Steps above the threshold that are close to one another, known by the first and the last one. -/
structure Episode (α : Type) where
  first : Step α
  last : Step α

namespace Episode

def length (e : Episode α) : Duration := e.last.after.time - e.first.before.time

def ofGroup? : List (Step α) → Option (Episode α)
  | [] => none
  | first :: rest => some ⟨first, (first :: rest).getLast (List.cons_ne_nil first rest)⟩

/-- The episodes of a series of steps, cut wherever two neighbours lie farther apart than `reach`. -/
def cut (reach : Nat) (steps : List (Step α)) : List (Episode α) :=
  (steps.splitBy fun a b => b.position - a.position ≤ reach).filterMap ofGroup?

def all [Scalar α] (c : MeterSettings α) (samples : List (Sample α)) : List (Episode α) :=
  cut c.reach ((Step.all samples).filter fun s => Scalar.lt c.threshold s.rate)

/-- What one more step does to episodes, newest first. -/
def extend (reach : Nat) (s : Step α) : List (Episode α) → List (Episode α)
  | [] => [⟨s, s⟩]
  | e :: older =>
    if s.position - e.last.position ≤ reach then ⟨e.first, s⟩ :: older else ⟨s, s⟩ :: e :: older

private theorem splitByLoop_concat {β : Type} (near : β → β → Bool) (xs : List β) (x y : β)
    (group : List β) (groups : List (List β)) :
    ∃ front start last,
      List.splitBy.loop near xs x group groups = front ++ [start ++ [last]] ∧
      List.splitBy.loop near (xs ++ [y]) x group groups =
        if near last y then front ++ [start ++ [last, y]] else front ++ [start ++ [last], [y]] := by
  induction xs generalizing x group groups with
  | nil =>
    refine ⟨groups.reverse, group.reverse, x, ?_, ?_⟩
    · simp [List.splitBy.loop]
    · cases close : near x y <;> simp [List.splitBy.loop, close]
  | cons z rest ih =>
    rw [List.cons_append, List.splitBy.loop, List.splitBy.loop]
    split
    · exact ih z _ _
    · exact ih z _ _

private theorem splitBy_concat {β : Type} (near : β → β → Bool) (xs : List β) (y : β) :
    (xs = [] ∧ xs.splitBy near = [] ∧ (xs ++ [y]).splitBy near = [[y]]) ∨
      ∃ front start last, xs.splitBy near = front ++ [start ++ [last]] ∧
        (xs ++ [y]).splitBy near =
          if near last y then front ++ [start ++ [last, y]] else front ++ [start ++ [last], [y]] := by
  cases xs with
  | nil => exact Or.inl ⟨rfl, rfl, rfl⟩
  | cons x rest => exact Or.inr (splitByLoop_concat near rest x y [] [])

private theorem ofGroup?_concat (start : List (Step α)) (last : Step α) :
    ∃ first, ofGroup? (start ++ [last]) = some ⟨first, last⟩ ∧
      ∀ s, ofGroup? (start ++ [last, s]) = some ⟨first, s⟩ := by
  cases start with
  | nil => exact ⟨last, rfl, fun s => rfl⟩
  | cons first rest => exact ⟨first, by simp [ofGroup?], fun s => by simp [ofGroup?]⟩

private theorem cut_concat (reach : Nat) (steps : List (Step α)) (s : Step α) :
    (cut reach (steps ++ [s])).reverse = extend reach s (cut reach steps).reverse := by
  rw [cut, cut]
  rcases splitBy_concat (fun a b : Step α => b.position - a.position ≤ reach) steps s with
    ⟨_, before, after⟩ | ⟨front, start, last, before, after⟩
  · rw [before, after]
    rfl
  · obtain ⟨first, ended, extended⟩ := ofGroup?_concat start last
    rw [before, after]
    simp only [List.filterMap_append, List.filterMap_cons, List.filterMap_nil, ended,
      List.reverse_append, List.reverse_cons, List.reverse_nil, List.nil_append, List.cons_append,
      extend, decide_eq_true_eq]
    split
    · simp [extended s]
    · have alone : ofGroup? [s] = some ⟨s, s⟩ := rfl
      rw [List.filterMap_append, List.filterMap_cons_some ended, List.filterMap_cons_some alone]
      simp

/-- Episodes, newest first, that lie farther apart than `reach` and end before position `count`. -/
structure Spread (reach count : Nat) (episodes : List (Episode α)) : Prop where
  ordered : ∀ e ∈ episodes, e.first.position ≤ e.last.position
  bound : ∀ e ∈ episodes, e.last.position < count
  apart : episodes.Pairwise fun newer older => older.last.position + reach < newer.first.position

private theorem Spread.cons {reach count : Nat} {e : Episode α} {older : List (Episode α)}
    (spread : Spread reach count older) (ordered : e.first.position ≤ e.last.position)
    (bound : e.last.position < count)
    (apart : ∀ o ∈ older, o.last.position + reach < e.first.position) :
    Spread reach count (e :: older) where
  ordered o member := by
    rcases List.mem_cons.mp member with rfl | behind
    · exact ordered
    · exact spread.ordered o behind
  bound o member := by
    rcases List.mem_cons.mp member with rfl | behind
    · exact bound
    · exact spread.bound o behind
  apart := List.pairwise_cons.mpr ⟨apart, spread.apart⟩

private theorem Spread.tail {reach count : Nat} {episodes : List (Episode α)}
    (spread : Spread reach count episodes) : Spread reach count episodes.tail where
  ordered e member := spread.ordered e (List.mem_of_mem_tail member)
  bound e member := spread.bound e (List.mem_of_mem_tail member)
  apart := spread.apart.tail

private theorem Spread.extended {reach : Nat} {s : Step α} {episodes : List (Episode α)}
    (spread : Spread reach s.position episodes) :
    Spread reach (s.position + 1) (extend reach s episodes) := by
  have later : Spread reach (s.position + 1) episodes :=
    { spread with bound := fun e member => Nat.lt_succ_of_lt (spread.bound e member) }
  have fresh : s.position < s.position + 1 := Nat.lt_succ_self _
  cases episodes with
  | nil => exact later.cons (Nat.le_refl _) fresh (by simp)
  | cons e older =>
    have apart := (List.pairwise_cons.mp spread.apart).1
    have ordered := spread.ordered e List.mem_cons_self
    have bound := spread.bound e List.mem_cons_self
    rw [extend]
    split
    · exact later.tail.cons (by dsimp only; omega) fresh apart
    next far =>
      apply later.cons (Nat.le_refl _) fresh
      intro o member
      rcases List.mem_cons.mp member with rfl | behind
      · dsimp only
        omega
      · have := apart o behind
        dsimp only
        omega

private theorem cut_spread (reach count : Nat) (steps : List (Step α))
    (increasing : steps.Pairwise fun a b => a.position < b.position)
    (bound : ∀ s ∈ steps, s.position < count) : Spread reach count (cut reach steps).reverse := by
  induction steps using List.reverseRecOn generalizing count with
  | nil => exact ⟨by simp [cut], by simp [cut], by simp [cut]⟩
  | append_singleton steps s ih =>
    obtain ⟨before, _, earlier⟩ := List.pairwise_append.mp increasing
    have below : s.position < count := bound s (by simp)
    have spread := ih s.position before (fun a member => earlier a member s (by simp))
    rw [cut_concat]
    have extended := spread.extended
    exact { extended with bound := fun e member => Nat.lt_of_lt_of_le (extended.bound e member) below }

private theorem cut_ends (reach : Nat) (steps : List (Step α)) :
    ∀ e ∈ cut reach steps, e.first ∈ steps ∧ e.last ∈ steps := by
  intro e member
  obtain ⟨group, cutOut, ends⟩ := List.mem_filterMap.mp member
  have inside : group ⊆ steps := by
    intro s there
    rw [← List.flatten_splitBy (fun a b : Step α => b.position - a.position ≤ reach) steps]
    exact List.mem_flatten_of_mem cutOut there
  cases group with
  | nil => contradiction
  | cons first rest =>
    cases Option.some.inj ends
    exact ⟨inside List.mem_cons_self, inside (List.getLast_mem _)⟩

variable [Scalar α]

/-- The ends of an episode of a recording lie where their positions say. -/
structure Lies (samples : List (Sample α)) (e : Episode α) : Prop where
  positive : 0 < e.first.position
  start : samples[e.first.position - 1]? = some e.first.before
  stop : samples[e.last.position]? = some e.last.after

theorem all_lie (c : MeterSettings α) (samples : List (Sample α)) :
    ∀ e ∈ all c samples, e.Lies samples := by
  intro e member
  obtain ⟨first, last⟩ := cut_ends _ _ e member
  obtain ⟨positive, start, _⟩ := Step.position_of_all samples e.first (List.mem_of_mem_filter first)
  obtain ⟨_, _, stop⟩ := Step.position_of_all samples e.last (List.mem_of_mem_filter last)
  exact ⟨positive, start, stop⟩

theorem all_spread (c : MeterSettings α) (samples : List (Sample α)) :
    Spread c.reach samples.length (all c samples).reverse := by
  apply cut_spread
  · exact (Step.all_increasing samples).filter _
  · intro s member
    obtain ⟨_, _, stop⟩ := Step.position_of_all samples s (List.mem_of_mem_filter member)
    exact (List.getElem?_eq_some_iff.mp stop).1

theorem all_concat (c : MeterSettings α) (samples : List (Sample α)) (a x : Sample α)
    (last : samples.getLast? = some a) :
    (all c (samples ++ [x])).reverse =
      if Scalar.lt c.threshold (Window.rateBetween a x) then
        extend c.reach ⟨samples.length, a, x⟩ (all c samples).reverse
      else (all c samples).reverse := by
  rw [all, Step.all_concat samples a x last, List.filter_append, List.filter_singleton]
  change (cut _ (_ ++ bif Scalar.lt c.threshold (Window.rateBetween a x) then _ else _)).reverse = _
  cases Scalar.lt c.threshold (Window.rateBetween a x) with
  | true => exact cut_concat _ _ _
  | false =>
    rw [cond_false, List.append_nil]
    rfl

end Episode
end Calorimetry
