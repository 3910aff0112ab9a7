import Calorimetry.Proofs.Scalar.Order
import Calorimetry.Table
import Mathlib.Data.List.Chain

/-! Which lists of points make a table. A sorted list has no fault in its slopes, so it makes one
exactly if its points are finite and no power falls, which is the case if no point with a smaller
slope has more power than another one. -/

namespace Calorimetry

/-- In a list without a point below an earlier one, of two points the lower one comes first. -/
theorem Point.forall_of_below {α : Type} {below agrees : Point α → Point α → Prop} {points : List (Point α)}
    (irreflexive : ∀ a ∈ points, ¬below a a) (placed : points.Pairwise fun a b => ¬below b a)
    (later : points.Pairwise agrees) : ∀ a ∈ points, ∀ b ∈ points, below a b → agrees a b := by
  have forward : points.Pairwise fun a b => below a b → agrees a b := by
    apply later.imp
    intro a b both _
    exact both
  have backward : points.Pairwise (flip fun a b => below a b → agrees a b) :=
    placed.imp fun other less => absurd less other
  intro a first b second
  exact List.Pairwise.forall_of_forall_of_flip (fun a member less => absurd less (irreflexive a member))
    forward backward first second

variable {α : Type} [Scalar α]

namespace Point

/-- Neither the slope nor the power falls from one neighbour to the next. -/
theorem disorder?_eq_none_iff (i : Nat) (points : List (Point α)) :
    disorder? i points = none ↔ points.IsChain fun a b =>
      Scalar.lt b.slope a.slope = false ∧ Scalar.lt b.power a.power = false := by
  induction points generalizing i with
  | nil => simp [disorder?]
  | cons a rest ih =>
    cases rest with
    | nil => simp [disorder?]
    | cons b rest =>
      rw [disorder?, List.isChain_cons_cons, ← ih (i + 1)]
      cases Scalar.lt b.slope a.slope <;> cases Scalar.lt b.power a.power <;> simp

theorem fault?_eq_none_iff (points : List (Point α)) :
    fault? points = none ↔ (∀ p ∈ points, p.isFinite = true) ∧ points.IsChain fun a b =>
      Scalar.lt b.slope a.slope = false ∧ Scalar.lt b.power a.power = false := by
  have finite : points.findIdx? (!·.isFinite) = none ↔ ∀ p ∈ points, p.isFinite = true := by
    simp [List.findIdx?_eq_none_iff]
  rw [← disorder?_eq_none_iff 0, ← finite, fault?]
  cases points.findIdx? (!·.isFinite) <;> simp

theorem precedes_iff (a b : Point α) : a.precedes b = true ↔
    Scalar.order a.slope b.slope = .lt ∨
      Scalar.order a.slope b.slope = .eq ∧ (Scalar.order a.power b.power).isLE = true :=
  Ordering.isLE_then_iff_or

variable [Scalar.Ordered α]

private theorem precedes_trans (a b c : Point α) (first : a.precedes b = true)
    (second : b.precedes c = true) : a.precedes c = true := by
  rw [precedes_iff] at first second ⊢
  rcases first with less | ⟨same, power⟩
  · rcases second with less' | ⟨same', _⟩
    · exact .inl (Std.TransCmp.lt_trans less less')
    · exact .inl (Std.TransCmp.lt_of_lt_of_eq less same')
  · rcases second with less' | ⟨same', power'⟩
    · exact .inl (Std.TransCmp.lt_of_eq_of_lt same less')
    · exact .inr ⟨Std.TransCmp.eq_trans same same', Std.TransCmp.isLE_trans power power'⟩

theorem precedes_swap (a b : Point α) : b.precedes a =
    ((Scalar.order a.slope b.slope).then (Scalar.order a.power b.power)).swap.isLE := by
  have slopes : Scalar.order b.slope a.slope = (Scalar.order a.slope b.slope).swap :=
    Std.OrientedCmp.eq_swap
  have powers : Scalar.order b.power a.power = (Scalar.order a.power b.power).swap :=
    Std.OrientedCmp.eq_swap
  rw [precedes, slopes, powers, ← Ordering.swap_then]

private theorem precedes_total (a b : Point α) : (a.precedes b || b.precedes a) = true := by
  rw [precedes_swap a b, precedes]
  cases (Scalar.order a.slope b.slope).then (Scalar.order a.power b.power) <;> rfl

theorem not_lt_slope (a b : Point α) (before : a.precedes b = true) :
    Scalar.lt b.slope a.slope = false := by
  apply Scalar.Ordered.not_lt
  rcases (a.precedes_iff b).mp before with less | ⟨same, _⟩
  · rw [less]
    rfl
  · rw [same]
    rfl

/-- No point comes before another one by its slope and has more power. -/
def InStep (points : List (Point α)) : Prop :=
  ∀ a ∈ points, ∀ b ∈ points, Scalar.order a.slope b.slope = .lt →
    Scalar.lt b.power a.power = false

/-- A value that is finite and falls at no neighbour falls nowhere. -/
private theorem pairwise_of_isChain (value : Point α → α) (points : List (Point α))
    (finite : ∀ p ∈ points, Scalar.isFinite (value p) = true)
    (chain : points.IsChain fun a b => Scalar.lt (value b) (value a) = false) :
    points.Pairwise fun a b => Scalar.lt (value b) (value a) = false := by
  induction points with
  | nil => exact .nil
  | cons a rest ih =>
    have later := ih (List.forall_mem_cons.mp finite).2 chain.tail
    refine List.pairwise_cons.mpr ⟨?_, later⟩
    cases rest with
    | nil => simp
    | cons b rest =>
      have first := (List.isChain_cons_cons.mp chain).1
      refine List.forall_mem_cons.mpr ⟨first, ?_⟩
      intro c member
      apply Bool.eq_false_iff.mpr
      intro less
      have second := (List.pairwise_cons.mp later).1 c member
      rcases Scalar.Ordered.lt_or_lt (finite b (by simp)) less with falls | falls
      · simp [second] at falls
      · simp [first] at falls

/-- In points without a fault nothing falls from a point to any later one. -/
theorem fault?_eq_none_iff_pairwise (points : List (Point α)) :
    fault? points = none ↔ (∀ p ∈ points, p.isFinite = true) ∧ points.Pairwise fun a b =>
      Scalar.lt b.slope a.slope = false ∧ Scalar.lt b.power a.power = false := by
  rw [fault?_eq_none_iff]
  refine and_congr_right fun finite => ⟨fun chain => ?_, List.Pairwise.isChain⟩
  have values (p : Point α) (member : p ∈ points) := Bool.and_eq_true_iff.mp (finite p member)
  have slopes := pairwise_of_isChain slope points (fun p member => (values p member).1)
    (chain.imp fun _ _ both => both.1)
  have powers := pairwise_of_isChain power points (fun p member => (values p member).2)
    (chain.imp fun _ _ both => both.2)
  exact slopes.and powers

end Point

namespace Table

theorem ofPoints_cases (points : List (Point α)) :
    (∃ table, ofPoints points = .ok table ∧ table.points = points ∧ Point.fault? points = none) ∨
      ∃ e, ofPoints points = .error e ∧ Point.fault? points = some e := by
  rw [ofPoints]
  split
  · next sound => exact .inl ⟨_, rfl, rfl, sound⟩
  · next e fault => exact .inr ⟨e, rfl, fault⟩

theorem ofPoints_points (t : Table α) : ofPoints t.points = .ok t := by
  rcases ofPoints_cases t.points with ⟨⟨points, _⟩, made, same, _⟩ | ⟨e, _, fault⟩
  · cases same
    exact made
  · rw [t.sound] at fault
    contradiction

theorem ofPoints_eq_ok_iff (points : List (Point α)) (t : Table α) :
    ofPoints points = .ok t ↔ t.points = points := by
  constructor
  · intro made
    rcases ofPoints_cases points with ⟨_, made', same, _⟩ | ⟨_, made', _⟩
    · rw [made', Except.ok.injEq] at made
      rwa [← made]
    · rw [made'] at made
      contradiction
  · rintro rfl
    exact ofPoints_points t

theorem exists_ofPoints_iff (points : List (Point α)) :
    (∃ t, ofPoints points = .ok t) ↔ Point.fault? points = none := by
  simp only [ofPoints_eq_ok_iff]
  exact ⟨fun ⟨t, same⟩ => same ▸ t.sound, fun sound => ⟨⟨points, sound⟩, rfl⟩⟩

theorem ofPoints_eq_error_iff (points : List (Point α)) (e : ConfigError) :
    ofPoints points = .error e ↔ Point.fault? points = some e := by
  rcases ofPoints_cases points with ⟨_, made, _, sound⟩ | ⟨_, made, fault⟩
  · simp [made, sound]
  · simp [made, fault]

theorem sorted_perm (points : List (Point α)) : (sorted points).Perm points :=
  List.mergeSort_perm points Point.precedes

private theorem forall_mem_sorted {holds : Point α → Prop} (points : List (Point α)) :
    (∀ p ∈ sorted points, holds p) ↔ ∀ p ∈ points, holds p := by
  simp [sorted]

variable [Scalar.Ordered α]

theorem sorted_pairwise (points : List (Point α)) :
    (sorted points).Pairwise fun a b => a.precedes b = true :=
  List.pairwise_mergeSort Point.precedes_trans Point.precedes_total points

theorem fault?_sorted_iff (points : List (Point α)) :
    Point.fault? (sorted points) = none ↔
      (∀ p ∈ points, p.isFinite = true) ∧ Point.InStep points := by
  have order := sorted_pairwise points
  rw [Point.fault?_eq_none_iff_pairwise, forall_mem_sorted]
  refine and_congr_right fun _ => ⟨fun both => ?_, fun inStep => ?_⟩
  · have irreflexive : ∀ a ∈ sorted points, Scalar.order a.slope a.slope ≠ .lt := by
      simp [Std.ReflCmp.compare_self]
    have placed : (sorted points).Pairwise fun a b => Scalar.order b.slope a.slope ≠ .lt := by
      apply order.imp
      intro a b before less
      have greater := Std.OrientedCmp.gt_iff_lt.mpr less
      rcases (a.precedes_iff b).mp before with less | ⟨same, _⟩
      · simp [less] at greater
      · simp [same] at greater
    have agrees := Point.forall_of_below irreflexive placed (both.imp fun both => both.2)
    intro a first b second
    exact agrees a (List.mem_mergeSort.mpr first) b (List.mem_mergeSort.mpr second)
  · apply order.imp_of_mem
    intro a b first second before
    refine ⟨Point.not_lt_slope a b before, ?_⟩
    rcases (a.precedes_iff b).mp before with less | ⟨_, power⟩
    · exact inStep a (List.mem_mergeSort.mp first) b (List.mem_mergeSort.mp second) less
    · exact Scalar.Ordered.not_lt power

end Table
end Calorimetry
