import Calorimetry.Config
import Calorimetry.Proofs.Table.Faults

/-! The two checks of points. Those given in a configuration or in a table file are checked before anything is
built from them, and a table checks its points once more. Both find the same fault at the same place and say the
same about it. -/

namespace Calorimetry.Config

/-- The same fault as a table tells it. -/
def PointFault.error : PointFault → ConfigError
  | notFinite i => .nonFinitePoint i
  | slopeFalls i => .unsortedTable i
  | powerFalls i => .nonMonotonicPower i

private theorem PointFault.error_injective {f g : PointFault} (same : f.error = g.error) : f = g := by
  cases f <;> cases g <;> cases same <;> rfl

private theorem PointFault.message_error (f : PointFault) : f.error.message = f.message := by
  cases f <;> rfl

private theorem findSome?_notFinite (points : List (Point Float)) (n : Nat) :
    ((points.zipIdx n).findSome? fun x =>
      if x.1.slope.isFinite && x.1.power.isFinite then none else some (PointFault.notFinite x.2)) =
      (points.findIdx? (!·.isFinite)).map fun i => .notFinite (n + i) := by
  induction points generalizing n with
  | nil => rfl
  | cons a rest ih =>
    have same : a.isFinite = (a.slope.isFinite && a.power.isFinite) := rfl
    rw [List.zipIdx_cons, List.findSome?_cons, List.findIdx?_cons, ih, same]
    cases a.slope.isFinite && a.power.isFinite with
    | true => simp [Function.comp_def, Nat.add_assoc, Nat.add_comm 1]
    | false => rfl

private theorem disorder?_eq (points : List (Point Float)) (n : Nat) :
    Point.disorder? n points = (((points.zipIdx n).zip points.tail).findSome? fun x =>
      if x.2.slope < x.1.1.slope then some (PointFault.slopeFalls x.1.2)
      else if x.2.power < x.1.1.power then some (PointFault.powerFalls x.1.2) else none).map
      PointFault.error := by
  induction points generalizing n with
  | nil => rfl
  | cons a rest ih =>
    cases rest with
    | nil => rfl
    | cons b rest =>
      have slopes : Scalar.lt b.slope a.slope = decide (b.slope < a.slope) := rfl
      have powers : Scalar.lt b.power a.power = decide (b.power < a.power) := rfl
      rw [Point.disorder?, ih, slopes, powers, List.zipIdx_cons (a := a), List.tail_cons (a := a),
        List.zip_cons_cons, List.findSome?_cons]
      by_cases slope : b.slope < a.slope
      · simp [slope, PointFault.error]
      · by_cases power : b.power < a.power
        · simp [slope, power, PointFault.error]
        · simp [slope, power]

private theorem fault?_eq (points : List (Point Float)) :
    Point.fault? points = (pointFault? points).map PointFault.error := by
  have finite := findSome?_notFinite points 0
  have order := disorder?_eq points 0
  simp only [Nat.zero_add] at finite
  rw [Point.fault?, pointFault?]
  dsimp only
  rw [finite, order]
  cases points.findIdx? (!·.isFinite) <;> rfl

/-- The same lists of points pass as make a table. -/
theorem pointFault?_eq_none_iff (points : List (Point Float)) :
    pointFault? points = none ↔ Point.fault? points = none := by
  rw [fault?_eq, Option.map_eq_none_iff]

private theorem pointFault?_eq_some_iff (points : List (Point Float)) (f : PointFault) :
    pointFault? points = some f ↔ Point.Faulty points f.error := by
  rw [← Point.fault?_eq_some_iff, fault?_eq, Option.map_eq_some_iff]
  constructor
  · intro found
    exact ⟨f, found, rfl⟩
  · rintro ⟨g, found, same⟩
    rwa [← PointFault.error_injective same]

/-- The points that pass are finite, and along them neither the slope nor the power ever falls. -/
theorem pointFault?_eq_none_iff_nondecreasing (points : List (Point Float)) :
    pointFault? points = none ↔
      (∀ p ∈ points, p.slope.isFinite = true ∧ p.power.isFinite = true) ∧
        points.Pairwise fun a b => a.slope ≤ b.slope ∧ a.power ≤ b.power := by
  have values : (∀ p ∈ points, p.isFinite = true) ↔
      ∀ p ∈ points, p.slope.isFinite = true ∧ p.power.isFinite = true :=
    forall₂_congr fun p _ => Bool.and_eq_true_iff
  rw [pointFault?_eq_none_iff, Point.fault?_eq_none_iff_pairwise, values]
  refine and_congr_right fun finite => List.Pairwise.iff_of_mem ?_
  intro a b first second
  have slopes := Binary64.le_iff_not_lt_of_isDefined
    (Binary64.isDefined_of_isFinite (finite a first).1) (Binary64.isDefined_of_isFinite (finite b second).1)
  have powers := Binary64.le_iff_not_lt_of_isDefined
    (Binary64.isDefined_of_isFinite (finite a first).2) (Binary64.isDefined_of_isFinite (finite b second).2)
  rw [slopes, powers]
  exact and_congr decide_eq_false_iff_not decide_eq_false_iff_not

/-- Points are refused as a table exactly if they are refused beforehand, for the same fault, with the same
words. It is the first one: a point that is not finite, or else the first neighbours of which the second has
less slope, or no less slope and less power. -/
theorem point_checks_agree (points : List (Point Float)) :
    (∀ t, Table.ofPoints points = .ok t ↔ pointFault? points = none ∧ t.points = points) ∧
      (∀ e, Table.ofPoints points = .error e ↔ ∃ f, pointFault? points = some f ∧ f.error = e) ∧
      (∀ f, pointFault? points = some f ↔ Point.Faulty points f.error) ∧
      (∀ f e, pointFault? points = some f → Table.ofPoints points = .error e → f.message = e.message) ∧
      (pointFault? points = none ↔
        (∀ p ∈ points, p.slope.isFinite = true ∧ p.power.isFinite = true) ∧
          points.Pairwise fun a b => a.slope ≤ b.slope ∧ a.power ≤ b.power) := by
  have errors (e : ConfigError) :
      Table.ofPoints points = .error e ↔ ∃ f, pointFault? points = some f ∧ f.error = e := by
    rw [Table.ofPoints_eq_error_iff, fault?_eq, Option.map_eq_some_iff]
  refine ⟨?_, errors, pointFault?_eq_some_iff points, ?_, pointFault?_eq_none_iff_nondecreasing points⟩
  · intro t
    rw [Table.ofPoints_eq_ok_iff, pointFault?_eq_none_iff]
    exact (and_iff_right_of_imp fun same => same ▸ t.sound).symm
  · intro f e found refused
    obtain ⟨g, found', rfl⟩ := (errors e).mp refused
    rw [found, Option.some.injEq] at found'
    rw [found', PointFault.message_error]

end Calorimetry.Config
