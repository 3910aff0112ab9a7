/-! Sequences that grow at one end and shrink at the other. Both ends are at hand, so what is asked
about the first or the last few elements costs no more in a long queue than in a short one.
`toList` tells what a queue holds, and every operation has one equation through it. -/

namespace Calorimetry

/-- `front` begins with the first element, and `back` with the last. -/
structure Queue (α : Type) where
  front : List α := []
  back : List α := []
  deriving DecidableEq

namespace Queue
variable {α : Type}

def toList (q : Queue α) : List α := q.front ++ q.back.reverse

def length (q : Queue α) : Nat := q.front.length + q.back.length

def isEmpty (q : Queue α) : Bool := q.front.isEmpty && q.back.isEmpty

def reverse (q : Queue α) : Queue α := ⟨q.back, q.front⟩

/-- Turns the back round when the front is used up. -/
def turn (q : Queue α) : Queue α := if q.front.isEmpty then ⟨q.back.reverse, []⟩ else q

def push (q : Queue α) (a : α) : Queue α := turn ⟨q.front, a :: q.back⟩

def tail (q : Queue α) : Queue α :=
  match q.front with
  | _ :: front => turn ⟨front, q.back⟩
  | [] => ⟨q.back.reverse.tail, []⟩

def drop : Nat → Queue α → Queue α
  | 0, q => q
  | n + 1, q => drop n q.tail

def head? (q : Queue α) : Option α :=
  match q.front with
  | a :: _ => some a
  | [] => q.back.getLast?

def getLast? (q : Queue α) : Option α := q.reverse.head?

def take (n : Nat) (q : Queue α) : List α :=
  let near := q.front.take n
  if near.length < n then q.toList.take n else near

def takeWhile (p : α → Bool) (q : Queue α) : List α :=
  if q.front.all p then q.toList.takeWhile p else q.front.takeWhile p

def findIdx? (p : α → Bool) (q : Queue α) : Option Nat :=
  match q.front.findIdx? p with
  | some i => some i
  | none => q.toList.findIdx? p

theorem length_toList (q : Queue α) : q.toList.length = q.length := by
  simp [toList, length]

theorem toList_reverse (q : Queue α) : q.reverse.toList = q.toList.reverse := by
  simp [toList, reverse]

theorem toList_turn (q : Queue α) : q.turn.toList = q.toList := by
  rcases q with ⟨_ | _, _⟩ <;> simp [turn, toList]

theorem toList_push (q : Queue α) (a : α) : (q.push a).toList = q.toList ++ [a] := by
  rw [push, toList_turn]
  simp [toList]

theorem toList_tail (q : Queue α) : q.tail.toList = q.toList.tail := by
  rcases q with ⟨_ | ⟨_, _⟩, _⟩
  · simp [tail, toList]
  · rw [tail, toList_turn]
    simp [toList]

theorem toList_drop (n : Nat) (q : Queue α) : (q.drop n).toList = q.toList.drop n := by
  induction n generalizing q with
  | zero => rfl
  | succ n ih => rw [drop, ih, toList_tail, List.drop_tail]

theorem head?_toList (q : Queue α) : q.toList.head? = q.head? := by
  rcases q with ⟨_ | _, _⟩ <;> simp [head?, toList]

theorem getLast?_toList (q : Queue α) : q.toList.getLast? = q.getLast? := by
  rw [getLast?, ← head?_toList, toList_reverse, List.head?_reverse]

theorem take_toList (n : Nat) (q : Queue α) : q.toList.take n = q.take n := by
  simp only [take]
  split
  · rfl
  · next enough =>
    rw [List.length_take] at enough
    rw [toList, List.take_append_of_le_length (by omega)]

theorem takeWhile_toList (p : α → Bool) (q : Queue α) :
    q.toList.takeWhile p = q.takeWhile p := by
  simp only [takeWhile]
  split
  · rfl
  · next mixed =>
    rw [toList, List.takeWhile_append, if_neg]
    intro whole
    have every := List.all_takeWhile (p := p) (l := q.front)
    rw [(List.takeWhile_prefix p).eq_of_length whole] at every
    exact mixed every

theorem findIdx?_toList (p : α → Bool) (q : Queue α) :
    q.toList.findIdx? p = q.findIdx? p := by
  simp only [findIdx?]
  split
  · next found => rw [toList, List.findIdx?_append, found]; rfl
  · rfl

end Queue
end Calorimetry
