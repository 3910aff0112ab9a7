import Calorimetry.Calibration
import Calorimetry.Proofs.Table.Sorting

/-! How a run ends. What it comes to is settled by where it stopped and which points it has then, and not by the
order in which it collected them. Undefined slopes and powers are told apart by their bits, so this holds of
the place of the first fault as well. -/

namespace Calorimetry.Calibration
variable {α : Type} [Scalar α]

/-- What a run comes to that stopped there, or nowhere, with these points. -/
def conclude (stopped : Option (Stage × Cause)) (points : List (Point α)) :
    Except (Aborted α) (Table α) :=
  match stopped with
  | some (stage, cause) => .error ⟨stage, cause, Table.sorted points⟩
  | none => (Table.ofUnsorted points).mapError fun e => ⟨.assembly, .table e, Table.sorted points⟩

private theorem run_concludes {σ : Type} (plan : Plan α) (env : Environment σ α) (s : σ) :
    (run plan env s).1 = conclude (sequence plan env s).stopped (sequence plan env s).points := by
  rw [run]
  cases (sequence plan env s).stopped with
  | some reason => rfl
  | none =>
    simp only [conclude, Table.ofUnsorted]
    cases Table.ofPoints (Table.sorted (sequence plan env s).points) <;> rfl

private theorem conclude_eq_ok_iff (stopped : Option (Stage × Cause)) (points : List (Point α)) (t : Table α) :
    conclude stopped points = .ok t ↔ stopped = none ∧ Table.ofUnsorted points = .ok t := by
  cases stopped with
  | some reason => simp [conclude]
  | none =>
    simp only [conclude, true_and]
    cases Table.ofUnsorted points <;> simp [Except.mapError]

variable [Scalar.Ordered α] [Std.LawfulEqCmp (Scalar.order : α → α → Ordering)]

private theorem conclude_eq_of_perm {points points' : List (Point α)} (same : points.Perm points')
    (stopped : Option (Stage × Cause)) : conclude stopped points = conclude stopped points' := by
  unfold conclude Table.ofUnsorted
  rw [Table.sorted_eq_of_perm same]

/-- Points in one order or another make the same table or are refused for the same reason at the same place,
and a run that has them comes to the same. A table has the points in the total order, in which nothing falls
from a point to a later one. -/
theorem assembly_ignores_order {points points' : List (Point α)} (same : points.Perm points') :
    Table.ofUnsorted points = Table.ofUnsorted points' ∧
      (∀ t, Table.ofUnsorted points = .ok t ↔
        t.points.Perm points' ∧ t.points.Pairwise fun a b => a.precedes b = true) ∧
      (∀ t, Table.ofUnsorted points = .ok t → t.points.Pairwise fun a b =>
        Scalar.lt b.slope a.slope = false ∧ Scalar.lt b.power a.power = false) ∧
      ∀ stopped, conclude stopped points = conclude stopped points' ∧
        (∀ t, conclude stopped points = .ok t ↔ stopped = none ∧ Table.ofUnsorted points = .ok t) ∧
        ∀ (σ : Type) (plan : Plan α) (env : Environment σ α) (s : σ),
          (sequence plan env s).stopped = stopped → (sequence plan env s).points.Perm points →
            (run plan env s).1 = conclude stopped points' := by
  have tables : Table.ofUnsorted points = Table.ofUnsorted points' := by
    rw [Table.ofUnsorted, Table.ofUnsorted, Table.sorted_eq_of_perm same]
  refine ⟨tables, ?_, ?_, ?_⟩
  · intro t
    rw [tables]
    exact Table.ofUnsorted_eq_ok_iff points' t
  · intro t _
    exact ((Point.fault?_eq_none_iff_pairwise t.points).mp t.sound).2
  · intro stopped
    refine ⟨conclude_eq_of_perm same stopped, conclude_eq_ok_iff stopped points, ?_⟩
    rintro σ plan env s rfl collected
    rw [run_concludes]
    exact conclude_eq_of_perm (collected.trans same) _

/-- Two undefined slopes, of which the one with a sign comes first in the total order, and a point between
them that is fine. -/
def undefinedEnds : List (Point Pattern) :=
  [⟨⟨0xfff8000000000000⟩, 2.0⟩, ⟨0, 0⟩, ⟨⟨0x7ff8000000000007⟩, 1.0⟩]

theorem assembly_ignores_order_undefined : undefinedEnds.reverse.Perm undefinedEnds ∧
    Table.ofUnsorted undefinedEnds.reverse = Table.ofUnsorted undefinedEnds ∧
    Table.ofUnsorted undefinedEnds = .error (.nonFinitePoint 0) := by
  have same : undefinedEnds.reverse.Perm undefinedEnds := undefinedEnds.reverse_perm
  refine ⟨same, (assembly_ignores_order same).1, ?_⟩
  have inOrder : Table.sorted undefinedEnds = undefinedEnds := List.mergeSort_of_pairwise (by decide)
  rw [Table.ofUnsorted, inOrder, Table.ofPoints_eq_error_iff]
  decide

end Calorimetry.Calibration
