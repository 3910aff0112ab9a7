import Calorimetry.Proofs.Scalar.Real
import Mathlib.Algebra.Order.BigOperators.Group.List
import Calorimetry.LineFit

/-! Lines through exact readings. If the points lie on a line, the fit is that line: the centred sums
have its slope for their ratio, no residual is left, and nothing is an outlier. -/

namespace Calorimetry.LineFit
open Scalar.Real (foldl_add sumOf_eq)

noncomputable def mean {β : Type} (f : β → ℝ) (points : List β) : ℝ :=
  (points.map f).sum / points.length

theorem mean_affine {β : Type} (f : β → ℝ) (slope intercept : ℝ) {points : List β}
    (some : points ≠ []) :
    mean (fun p => slope * f p + intercept) points = slope * mean f points + intercept := by
  have count : (points.length : ℝ) ≠ 0 := Nat.cast_ne_zero.mpr (mt List.eq_nil_of_length_eq_zero some)
  rw [mean, mean, List.sum_map_add, List.sum_map_mul_left, List.map_const', List.sum_replicate,
    nsmul_eq_mul]
  field_simp

/-- Sum of products of abscissae, less their mean, with values of `f`, less theirs. -/
noncomputable def centredSum (f : ℝ × ℝ → ℝ) (points : List (ℝ × ℝ)) : ℝ :=
  (points.map fun p => (p.1 - mean Prod.fst points) * (f p - mean f points)).sum

theorem centredSum_affine (f : ℝ × ℝ → ℝ) (slope intercept : ℝ) {points : List (ℝ × ℝ)}
    (some : points ≠ []) :
    centredSum (fun p => slope * f p + intercept) points = slope * centredSum f points := by
  rw [centredSum, centredSum, mean_affine f slope intercept some, ← List.sum_map_mul_left]
  refine congrArg List.sum (List.map_congr_left fun p _ => ?_)
  ring

theorem mean_congr {β : Type} {f g : β → ℝ} {points : List β} (same : ∀ p ∈ points, f p = g p) :
    mean f points = mean g points := by
  rw [mean, mean, List.map_congr_left same]

private theorem centredSum_congr {f g : ℝ × ℝ → ℝ} {points : List (ℝ × ℝ)} (same : ∀ p ∈ points, f p = g p) :
    centredSum f points = centredSum g points := by
  rw [centredSum, centredSum, mean_congr same]
  refine congrArg List.sum (List.map_congr_left fun p member => ?_)
  rw [same p member]

theorem mean_mul {β : Type} (f : β → ℝ) (factor : ℝ) (points : List β) :
    mean (fun p => factor * f p) points = factor * mean f points := by
  rw [mean, mean, List.sum_map_mul_left, mul_div_assoc]

theorem mean_map {β γ : Type} (f : γ → ℝ) (g : β → γ) (points : List β) :
    mean f (points.map g) = mean (f ∘ g) points := by
  rw [mean, mean, List.map_map, List.length_map]

theorem centredSum_map (f : ℝ × ℝ → ℝ) {g : ℝ × ℝ → ℝ × ℝ} (same : Prod.fst ∘ g = Prod.fst)
    (points : List (ℝ × ℝ)) : centredSum f (points.map g) = centredSum (f ∘ g) points := by
  rw [centredSum, centredSum, mean_map, mean_map, same, List.map_map]
  refine congrArg List.sum (List.map_congr_left fun p _ => ?_)
  rw [← congrFun same p]
  rfl

/-- The line by its textbook formulas. -/
theorem leastSquares_eq (points : List (ℝ × ℝ)) :
    leastSquares points =
      if points.length < 2 ∨ centredSum Prod.fst points = 0 then Option.none
      else
        let slope := centredSum Prod.snd points / centredSum Prod.fst points
        some ⟨slope, mean Prod.snd points - slope * mean Prod.fst points⟩ := by
  have finite (x : ℝ) : Scalar.isFinite x = true := rfl
  have zero (x : ℝ) : Scalar.eq x 0 = decide (x = 0) := rfl
  have centre (f : ℝ × ℝ → ℝ) : (points.map f).sum / points.length = mean f points := rfl
  have squares : (points.map fun p => (p.1 - mean Prod.fst points) * (p.1 - mean Prod.fst points)).sum =
      centredSum Prod.fst points := rfl
  have products : (points.map fun p => (p.1 - mean Prod.fst points) * (p.2 - mean Prod.snd points)).sum =
      centredSum Prod.snd points := rfl
  rw [leastSquares]
  simp only [sumOf_eq, foldl_add, zero_add, centre, squares, products, finite, zero]
  by_cases few : points.length < 2
  · rw [if_pos few, if_pos (.inl few)]
  · by_cases flat : centredSum Prod.fst points = 0
    · simp [flat]
    · simp [few, flat]

theorem centredSum_fst_pos {points : List (ℝ × ℝ)}
    (apart : ∃ p ∈ points, ∃ q ∈ points, p.1 ≠ q.1) : 0 < centredSum Prod.fst points := by
  obtain ⟨p, first, q, second, differ⟩ := apart
  have off : ∃ p ∈ points, p.1 ≠ mean Prod.fst points := by
    by_cases centred : p.1 = mean Prod.fst points
    · exact ⟨q, second, fun same => differ (centred.trans same.symm)⟩
    · exact ⟨p, first, centred⟩
  obtain ⟨r, member, apart⟩ := off
  have others : ∀ x ∈ points.map fun p => (p.1 - mean Prod.fst points) * (p.1 - mean Prod.fst points),
      0 ≤ x := by
    intro x present
    obtain ⟨q, _, rfl⟩ := List.mem_map.mp present
    exact mul_self_nonneg _
  have one := List.single_le_sum others _ (List.mem_map_of_mem member)
  exact lt_of_lt_of_le (mul_self_pos.mpr (sub_ne_zero.mpr apart)) one

private theorem leastSquares_of_line (slope intercept : ℝ) (points : List (ℝ × ℝ))
    (on : ∀ p ∈ points, p.2 = slope * p.1 + intercept)
    (apart : ∃ p ∈ points, ∃ q ∈ points, p.1 ≠ q.1) :
    leastSquares points = some ⟨slope, intercept⟩ := by
  have positive := centredSum_fst_pos apart
  obtain ⟨p, first, q, second, differ⟩ := apart
  have two : ¬ points.length < 2 := by
    intro few
    obtain ⟨r, rfl⟩ := List.length_eq_one_iff.mp
      (Nat.le_antisymm (Nat.le_of_lt_succ few) (List.length_pos_of_mem first))
    rw [List.mem_singleton.mp first, List.mem_singleton.mp second] at differ
    exact differ rfl
  have some := List.ne_nil_of_mem first
  have centre : mean Prod.snd points = slope * mean Prod.fst points + intercept :=
    (mean_congr on).trans (mean_affine Prod.fst slope intercept some)
  have products : centredSum Prod.snd points = slope * centredSum Prod.fst points :=
    (centredSum_congr on).trans (centredSum_affine Prod.fst slope intercept some)
  rw [leastSquares_eq, if_neg (not_or.mpr ⟨two, positive.ne'⟩), products, centre,
    mul_div_cancel_right₀ slope positive.ne']
  simp

theorem spread_eq (l : Line ℝ) (points : List (ℝ × ℝ)) :
    spread l points = √(mean (fun p => l.residual p * l.residual p) points) := by
  rw [spread, sumOf_eq]
  rfl

theorem ofPoints_of_line (k slope intercept : ℝ) (points : List (ℝ × ℝ))
    (on : ∀ p ∈ points, p.2 = slope * p.1 + intercept)
    (apart : ∃ p ∈ points, ∃ q ∈ points, p.1 ≠ q.1) :
    ofPoints k points = ⟨⟨slope, intercept⟩, points.length, false⟩ := by
  have exact : ∀ p ∈ points, (⟨slope, intercept⟩ : Line ℝ).residual p = 0 := by
    intro p member
    rw [Line.residual, on p member]
    exact sub_self _
  have squares : Scalar.sumOf (fun p => (⟨slope, intercept⟩ : Line ℝ).residual p *
      (⟨slope, intercept⟩ : Line ℝ).residual p) points = 0 := by
    rw [sumOf_eq]
    apply List.sum_eq_zero
    intro x present
    obtain ⟨p, member, rfl⟩ := List.mem_map.mp present
    rw [exact p member]
    exact mul_zero 0
  have spread : spread (⟨slope, intercept⟩ : Line ℝ) points = 0 := by
    rw [spread, squares]
    exact (congrArg Real.sqrt (zero_div _)).trans Real.sqrt_zero
  have bound : Scalar.isPositive (k * (0 : ℝ)) = false := by
    apply Bool.eq_false_iff.mpr
    rw [ne_eq, Scalar.Real.isPositive_iff]
    simp
  rw [ofPoints, leastSquares_of_line slope intercept points on apart]
  dsimp only
  rw [spread, bound]
  rfl

end Calorimetry.LineFit
