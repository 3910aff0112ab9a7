import Calorimetry.Proofs.Scalar.Pattern
import Calorimetry.Proofs.Table.Faults

/-! What sorting does for points that are to make a table. The total order tells apart all points that differ, so
sorted points do not depend on the order in which they came. But it also tells apart the two zeros, which the
check of a table does not: of points that make a table in some order, sorting may bring those with a slope of
negative zero in front of weaker ones with a slope of zero. -/

namespace Calorimetry

namespace Point
variable {α : Type} [Scalar α]

/-- Where the check cannot tell two slopes apart, the one that comes first in the total order has no more
power. -/
def TiesInStep (points : List (Point α)) : Prop :=
  ∀ a ∈ points, ∀ b ∈ points, Scalar.order a.slope b.slope = .lt →
    Scalar.lt a.slope b.slope = false → Scalar.lt b.power a.power = false

variable [Scalar.Ordered α]

private theorem precedes_antisymm [Std.LawfulEqCmp (Scalar.order : α → α → Ordering)]
    {a b : Point α} (first : a.precedes b = true) (second : b.precedes a = true) : a = b := by
  rw [precedes_swap] at second
  rw [precedes] at first
  have same : (Scalar.order a.slope b.slope).then (Scalar.order a.power b.power) = .eq := by
    cases place : (Scalar.order a.slope b.slope).then (Scalar.order a.power b.power) with
    | lt => simp [place] at second
    | eq => rfl
    | gt => simp [place] at first
  obtain ⟨slopes, powers⟩ := Ordering.then_eq_eq.mp same
  obtain ⟨slope, power⟩ := a
  cases Std.LawfulEqCmp.eq_of_compare slopes
  cases Std.LawfulEqCmp.eq_of_compare powers
  rfl

private theorem not_lt_power_of_perm {points points' : List (Point α)} (same : points'.Perm points)
    (sound : fault? points' = none) : ∀ a ∈ points, ∀ b ∈ points,
      Scalar.lt a.slope b.slope = true → Scalar.lt b.power a.power = false := by
  obtain ⟨_, order⟩ := (fault?_eq_none_iff_pairwise points').mp sound
  have irreflexive : ∀ a ∈ points', ¬Scalar.lt a.slope a.slope = true := by
    intro a _ less
    have itself : (Scalar.order a.slope a.slope).isLE = true := by simp [Std.ReflCmp.compare_self]
    rw [Scalar.Ordered.not_lt itself] at less
    contradiction
  have placed : points'.Pairwise fun a b => ¬Scalar.lt b.slope a.slope = true :=
    order.imp fun both => by simp [both.1]
  have agrees := forall_of_below irreflexive placed (order.imp fun both => both.2)
  intro a first b second
  exact agrees a (same.mem_iff.mpr first) b (same.mem_iff.mpr second)

end Point

namespace Table
variable {α : Type} [Scalar α] [Scalar.Ordered α]

theorem sorted_eq_of_perm [Std.LawfulEqCmp (Scalar.order : α → α → Ordering)]
    {points points' : List (Point α)} (same : points.Perm points') : sorted points = sorted points' := by
  have both : (sorted points).Perm (sorted points') :=
    (sorted_perm points).trans (same.trans (sorted_perm points').symm)
  exact both.eq_of_pairwise (fun _ _ _ _ => Point.precedes_antisymm) (sorted_pairwise points)
    (sorted_pairwise points')

/-- The table of some points is the one that has them in the total order. -/
theorem ofUnsorted_eq_ok_iff [Std.LawfulEqCmp (Scalar.order : α → α → Ordering)]
    (points : List (Point α)) (t : Table α) : ofUnsorted points = .ok t ↔
      t.points.Perm points ∧ t.points.Pairwise fun a b => a.precedes b = true := by
  rw [ofUnsorted, ofPoints_eq_ok_iff]
  constructor
  · intro same
    rw [same]
    exact ⟨sorted_perm points, sorted_pairwise points⟩
  · rintro ⟨same, order⟩
    rw [← sorted_eq_of_perm same]
    exact (List.mergeSort_of_pairwise order).symm

/-- Sorted points make a table exactly if the points do in some order and their ties are in step. -/
theorem fault?_sorted_iff_perm (points : List (Point α)) :
    Point.fault? (sorted points) = none ↔
      (∃ points', points'.Perm points ∧ Point.fault? points' = none) ∧ Point.TiesInStep points := by
  constructor
  · intro sound
    refine ⟨⟨sorted points, sorted_perm points, sound⟩, ?_⟩
    intro a first b second before _
    exact ((fault?_sorted_iff points).mp sound).2 a first b second before
  · rintro ⟨⟨points', same, sound⟩, ties⟩
    have finite := ((Point.fault?_eq_none_iff points').mp sound).1
    refine (fault?_sorted_iff points).mpr ⟨fun p member => finite p (same.mem_iff.mpr member), ?_⟩
    intro a first b second before
    cases less : Scalar.lt a.slope b.slope with
    | true => exact Point.not_lt_power_of_perm same sound a first b second less
    | false => exact ties a first b second before less

/-- If sorting spoils a table, then by a power that falls at a tie. -/
private theorem tie_of_fault?_sorted {points points' : List (Point α)} {e : ConfigError}
    (same : points'.Perm points) (sound : Point.fault? points' = none)
    (fault : Point.fault? (sorted points) = some e) : ∃ before a b after,
      sorted points = before ++ a :: b :: after ∧ Scalar.order a.slope b.slope = .lt ∧
        Scalar.lt a.slope b.slope = false ∧ Scalar.lt b.power a.power = true ∧
        e = .nonMonotonicPower before.length := by
  have finite := ((Point.fault?_eq_none_iff points').mp sound).1
  have order := sorted_pairwise points
  have neighbours {before after : List (Point α)} {a b : Point α}
      (split : sorted points = before ++ a :: b :: after) :
      a.precedes b = true := by
    rw [split] at order
    exact (List.pairwise_cons.mp (List.pairwise_append.mp order).2.1).1 b List.mem_cons_self
  cases (Point.fault?_eq_some_iff _ e).mp fault with
  | @notFinite before p after split _ broken =>
    have member : p ∈ points' :=
      same.mem_iff.mpr ((sorted_perm points).mem_iff.mp (split ▸ by simp))
    rw [finite p member] at broken
    contradiction
  | slopeFalls _ first falls =>
    rw [Point.not_lt_slope _ _ (neighbours first.split)] at falls
    contradiction
  | @powerFalls before a b after _ first rises falls =>
    refine ⟨before, a, b, after, first.split, ?_, ?_, falls, rfl⟩
    · rcases (a.precedes_iff b).mp (neighbours first.split) with less | ⟨_, power⟩
      · exact less
      · rw [Scalar.Ordered.not_lt power] at falls
        contradiction
    · apply Bool.eq_false_iff.mpr
      intro less
      have members : a ∈ points ∧ b ∈ points :=
        ⟨(sorted_perm points).mem_iff.mp (first.split ▸ by simp),
          (sorted_perm points).mem_iff.mp (first.split ▸ by simp)⟩
      rw [Point.not_lt_power_of_perm same sound a members.1 b members.2 less] at falls
      contradiction

end Table

namespace Binary64

/-- The total order tells apart no finite doubles that compare as equal but the zeros. -/
theorem tied_iff_zeros {x y : Float} (finite : x.isFinite = true) (finite' : y.isFinite = true) :
    Scalar.order x y = .lt ∧ Scalar.lt x y = false ↔ x = -0.0 ∧ y = 0.0 := by
  constructor
  · rintro ⟨before, same⟩
    have ranks : rank x < rank y := Int.compare_eq_lt.mp before
    have keys : ¬key x < key y := by
      intro less
      have less := (lt_iff x y).mpr ⟨isDefined_of_isFinite finite, isDefined_of_isFinite finite', less⟩
      exact of_decide_eq_false same less
    have both : rank x = -1 ∧ rank y = 0 := by
      rw [rank, rank] at ranks ⊢
      rw [key, key, sign, sign] at keys
      cases negative : isNegative x <;> cases negative' : isNegative y <;>
        simp only [negative, negative', signed, if_true, Bool.false_eq_true, if_false] at ranks keys ⊢ <;>
        omega
    have zeros : rank (-0.0) = -1 ∧ rank 0.0 = 0 := by decide
    exact ⟨Pattern.eq_of_rank_eq (both.1.trans zeros.1.symm),
      Pattern.eq_of_rank_eq (both.2.trans zeros.2.symm)⟩
  · rintro ⟨rfl, rfl⟩
    decide

end Binary64

namespace Table

private theorem tiesInStep_iff {points : List (Point Float)} (finite : ∀ p ∈ points, p.isFinite = true) :
    Point.TiesInStep points ↔
      ∀ a ∈ points, ∀ b ∈ points, a.slope = -0.0 → b.slope = 0.0 → ¬b.power < a.power := by
  have slopes {p : Point Float} (member : p ∈ points) : p.slope.isFinite = true :=
    (Bool.and_eq_true_iff.mp (finite p member)).1
  constructor
  · intro ties a first b second negative positive
    obtain ⟨before, same⟩ :=
      (Binary64.tied_iff_zeros (slopes first) (slopes second)).mpr ⟨negative, positive⟩
    exact of_decide_eq_false (ties a first b second before same)
  · intro zeros a first b second before same
    obtain ⟨negative, positive⟩ :=
      (Binary64.tied_iff_zeros (slopes first) (slopes second)).mp ⟨before, same⟩
    exact decide_eq_false (zeros a first b second negative positive)

/-- Points that make a table in some order make one when they are sorted, unless one with a slope of negative
zero has more power than one with a slope of zero. Then they are refused at the last point with the former
slope and the first one with the latter. -/
theorem sorting_repairs_order (points : List (Point Float)) :
    ((∃ t, ofUnsorted points = .ok t) ↔
        (∃ points', points'.Perm points ∧ ∃ t, ofPoints points' = .ok t) ∧
          ∀ a ∈ points, ∀ b ∈ points, a.slope = -0.0 → b.slope = 0.0 → ¬b.power < a.power) ∧
      ((∃ points', points'.Perm points ∧ ∃ t, ofPoints points' = .ok t) →
        (∃ t, ofUnsorted points = .ok t) ∨ ∃ before a b after,
          sorted points = before ++ a :: b :: after ∧ a.slope = -0.0 ∧ b.slope = 0.0 ∧ b.power < a.power ∧
            ofUnsorted points = .error (.nonMonotonicPower before.length)) := by
  simp only [ofUnsorted, exists_ofPoints_iff, ofPoints_eq_error_iff]
  have finite_of_perm {points' : List (Point Float)} (same : points'.Perm points)
      (sound : Point.fault? points' = none) : ∀ p ∈ points, p.isFinite = true :=
    fun p member => ((Point.fault?_eq_none_iff points').mp sound).1 p (same.mem_iff.mpr member)
  constructor
  · rw [fault?_sorted_iff_perm]
    refine and_congr_right ?_
    rintro ⟨points', same, sound⟩
    exact tiesInStep_iff (finite_of_perm same sound)
  · rintro ⟨points', same, sound⟩
    cases fault : Point.fault? (sorted points) with
    | none => exact .inl rfl
    | some e =>
      obtain ⟨before, a, b, after, split, first, tied, falls, rfl⟩ :=
        tie_of_fault?_sorted same sound fault
      have slopes {p : Point Float} (member : p ∈ sorted points) : p.slope.isFinite = true :=
        (Bool.and_eq_true_iff.mp
          (finite_of_perm same sound p ((sorted_perm points).mem_iff.mp member))).1
      obtain ⟨negative, positive⟩ := (Binary64.tied_iff_zeros (slopes (split ▸ by simp))
        (slopes (split ▸ by simp))).mp ⟨first, tied⟩
      exact .inr ⟨before, a, b, after, split, negative, positive, of_decide_eq_true falls, rfl⟩

/-- A list that makes a table as it is, and none when it is sorted. -/
theorem sorting_spoils_zeros :
    (∃ t, ofPoints [⟨0.0, 1.0⟩, ⟨-0.0, (2.0 : Float)⟩] = .ok t) ∧
      ofUnsorted [⟨0.0, 1.0⟩, ⟨-0.0, (2.0 : Float)⟩] = .error (.nonMonotonicPower 0) := by
  refine ⟨(exists_ofPoints_iff _).mpr (by decide), ?_⟩
  have turned : sorted [⟨0.0, 1.0⟩, ⟨-0.0, (2.0 : Float)⟩] = [⟨-0.0, 2.0⟩, ⟨0.0, 1.0⟩] := by
    rw [sorted_eq_of_perm (List.Perm.swap _ _ _)]
    exact List.mergeSort_of_pairwise (by decide)
  rw [ofUnsorted, turned, ofPoints_eq_error_iff]
  decide

end Table
end Calorimetry
