import Calorimetry.Proofs.LineFit
import Mathlib.Tactic.Linarith

/-! What a fit is. The line that is fitted first has the least sum of squared residuals among all lines, and it
is the only one that has. The sums that are carried along from point to point give the same line as two
passes over the points, so the line fitted last has the least sum over the points that were not left out. -/

namespace Calorimetry

noncomputable def Line.squaredError (l : Line ℝ) (points : List (ℝ × ℝ)) : ℝ :=
  (points.map fun p => l.residual p ^ 2).sum

/-- No line is closer to the points, and no other one is as close. -/
structure Line.Closest (l : Line ℝ) (points : List (ℝ × ℝ)) : Prop where
  least : ∀ other : Line ℝ, l.squaredError points ≤ other.squaredError points
  unique : ∀ other : Line ℝ, other.squaredError points ≤ l.squaredError points → other = l

namespace LineFit

/-- There are two different abscissae. -/
def Apart (points : List (ℝ × ℝ)) : Prop := ∃ p ∈ points, ∃ q ∈ points, p.1 ≠ q.1

variable {points : List (ℝ × ℝ)}

private theorem Apart.two_le (apart : Apart points) : 2 ≤ points.length := by
  obtain ⟨p, first, q, second, differ⟩ := apart
  match points with
  | [] => simp at first
  | [r] => simp_all
  | _ :: _ :: _ => simp

private theorem sum_eq_mean {β : Type} (f : β → ℝ) (points : List β) :
    (points.map f).sum = points.length * mean f points := by
  cases points with
  | nil => simp
  | cons p rest =>
    have count : ((p :: rest).length : ℝ) ≠ 0 := by simp; positivity
    unfold mean
    field_simp

private theorem sum_sub {β : Type} (f g : β → ℝ) (points : List β) :
    (points.map fun p => f p - g p).sum = (points.map f).sum - (points.map g).sum := by
  induction points with
  | nil => simp
  | cons p rest ih =>
    simp only [List.map_cons, List.sum_cons, ih]
    ring

private theorem centredSum_eq_zero_iff : centredSum Prod.fst points = 0 ↔ ¬Apart points := by
  constructor
  · intro none apart
    exact (centredSum_fst_pos apart).ne' none
  · intro together
    unfold centredSum
    apply List.sum_eq_zero
    intro x member
    obtain ⟨p, present, rfl⟩ := List.mem_map.mp member
    have same : mean Prod.fst points = p.1 := by
      have all : ∀ q ∈ points, q.1 = p.1 := by
        intro q other
        by_contra differ
        exact together ⟨q, other, p, present, differ⟩
      have count : (points.length : ℝ) ≠ 0 :=
        Nat.cast_ne_zero.mpr (List.length_pos_of_mem present).ne'
      rw [mean_congr (g := fun _ => p.1) all]
      simp [mean, count]
    simp [same]

theorem leastSquares_cases (points : List (ℝ × ℝ)) :
    ¬Apart points ∧ leastSquares points = Option.none ∨
      Apart points ∧ leastSquares points =
        some ⟨centredSum Prod.snd points / centredSum Prod.fst points,
          mean Prod.snd points - centredSum Prod.snd points / centredSum Prod.fst points *
            mean Prod.fst points⟩ := by
  rw [leastSquares_eq]
  by_cases apart : Apart points
  · have many := apart.two_le.not_gt
    have wide := mt centredSum_eq_zero_iff.mp (not_not.mpr apart)
    simp [apart, many, wide]
  · have flat := centredSum_eq_zero_iff.mpr apart
    simp [apart, flat]

/-! ## The closest line -/

/-- Seen from the point of means, the residuals of a line through it are orthogonal to every line. -/
theorem residuals_orthogonal (apart : Apart points) {l : Line ℝ}
    (fitted : leastSquares points = some l) (u v : ℝ) :
    (points.map fun p => l.residual p * (u * p.1 + v)).sum = 0 := by
  obtain ⟨alone, _⟩ | ⟨_, formula⟩ := leastSquares_cases points
  · contradiction
  rw [formula, Option.some.injEq] at fitted
  have positive := (centredSum_fst_pos apart).ne'
  set a := centredSum Prod.snd points / centredSum Prod.fst points with slope
  have products : centredSum Prod.snd points - a * centredSum Prod.fst points = 0 := by
    rw [slope, div_mul_cancel₀ _ positive, sub_self]
  have split (p : ℝ × ℝ) : l.residual p * (u * p.1 + v) =
      u * ((p.1 - mean Prod.fst points) * (p.2 - mean Prod.snd points) -
          a * ((p.1 - mean Prod.fst points) * (p.1 - mean Prod.fst points))) +
        (u * mean Prod.fst points + v) *
          ((p.2 - mean Prod.snd points) - a * (p.1 - mean Prod.fst points)) := by
    rw [← fitted, Line.residual]
    ring
  -- The first sum is nothing by the choice of the slope, the second because deviations from a mean cancel.
  simp only [split, List.sum_map_add, List.sum_map_mul_left, sum_sub, List.map_const',
    List.sum_replicate, nsmul_eq_mul, sum_eq_mean Prod.fst, sum_eq_mean Prod.snd]
  change u * (centredSum Prod.snd points - a * centredSum Prod.fst points) + _ = 0
  rw [products]
  ring

private theorem squaredError_eq (apart : Apart points) {l : Line ℝ} (fitted : leastSquares points = some l)
    (other : Line ℝ) : other.squaredError points = l.squaredError points +
      (points.map fun p => ((l.slope - other.slope) * p.1 + (l.intercept - other.intercept)) ^ 2).sum := by
  have cross := residuals_orthogonal apart fitted (l.slope - other.slope) (l.intercept - other.intercept)
  have split (p : ℝ × ℝ) : other.residual p ^ 2 =
      l.residual p ^ 2 +
        2 * (l.residual p * ((l.slope - other.slope) * p.1 + (l.intercept - other.intercept))) +
        ((l.slope - other.slope) * p.1 + (l.intercept - other.intercept)) ^ 2 := by
    unfold Line.residual
    ring
  simp only [Line.squaredError, split, List.sum_map_add, List.sum_map_mul_left, cross]
  ring

private theorem sum_squares_nonneg {β : Type} (f : β → ℝ) (points : List β) :
    0 ≤ (points.map fun p => f p ^ 2).sum := by
  apply List.sum_nonneg
  intro x member
  obtain ⟨p, _, rfl⟩ := List.mem_map.mp member
  exact sq_nonneg _

private theorem eq_zero_of_sum_squares {β : Type} {f : β → ℝ} {points : List β}
    (none : (points.map fun p => f p ^ 2).sum ≤ 0) : ∀ p ∈ points, f p = 0 := by
  intro p present
  have terms : ∀ x ∈ points.map fun p => f p ^ 2, 0 ≤ x := by
    intro x member
    obtain ⟨q, _, rfl⟩ := List.mem_map.mp member
    exact sq_nonneg _
  have one := List.single_le_sum terms _ (List.mem_map_of_mem present)
  exact pow_eq_zero_iff two_ne_zero |>.mp (le_antisymm (one.trans none) (sq_nonneg _))

private theorem leastSquares_closest (apart : Apart points) {l : Line ℝ}
    (fitted : leastSquares points = some l) : l.Closest points where
  least other := by
    rw [squaredError_eq apart fitted other]
    exact le_add_of_nonneg_right (sum_squares_nonneg _ points)
  unique other close := by
    rw [squaredError_eq apart fitted other] at close
    have same := eq_zero_of_sum_squares (by linarith)
    obtain ⟨p, first, q, second, differ⟩ := apart
    have atP := same p first
    have atQ := same q second
    -- Two lines that agree at two abscissae are the same.
    have slopes : l.slope - other.slope = 0 := by
      have product : (l.slope - other.slope) * (p.1 - q.1) = 0 := by linarith
      exact (mul_eq_zero.mp product).resolve_right (sub_ne_zero.mpr differ)
    rw [slopes, zero_mul, zero_add] at atP
    cases l
    cases other
    simp_all only [Line.mk.injEq]
    constructor <;> linarith

/-! ## One pass over the points -/

private theorem centredSum_eq (f : ℝ × ℝ → ℝ) (points : List (ℝ × ℝ)) :
    centredSum f points = (points.map fun p => p.1 * f p).sum -
      points.length * mean Prod.fst points * mean f points := by
  have split (p : ℝ × ℝ) : (p.1 - mean Prod.fst points) * (f p - mean f points) =
      p.1 * f p - mean Prod.fst points * f p - mean f points * (p.1 - mean Prod.fst points) := by ring
  simp only [centredSum, split, sum_sub, List.sum_map_mul_left, List.map_const', List.sum_replicate,
    nsmul_eq_mul, sum_eq_mean f, sum_eq_mean Prod.fst]
  ring

private theorem mean_concat {β : Type} (f : β → ℝ) (points : List β) (p : β) :
    mean f (points ++ [p]) = mean f points + (f p - mean f points) / ((points.length + 1 : ℕ) : ℝ) := by
  have count : ((points.length + 1 : ℕ) : ℝ) ≠ 0 := by positivity
  rw [mean, List.map_append, List.sum_append, sum_eq_mean f, List.length_append]
  push_cast at count ⊢
  simp only [List.map_cons, List.map_nil, List.sum_cons, List.sum_nil, List.length_singleton]
  push_cast
  field_simp
  ring

private theorem centredSum_concat (f : ℝ × ℝ → ℝ) (points : List (ℝ × ℝ)) (p : ℝ × ℝ) :
    centredSum f (points ++ [p]) =
      centredSum f points + (p.1 - mean Prod.fst points) * (f p - mean f (points ++ [p])) := by
  have count : ((points.length + 1 : ℕ) : ℝ) ≠ 0 := by positivity
  rw [centredSum_eq, centredSum_eq, mean_concat, mean_concat, List.map_append, List.sum_append,
    List.length_append]
  push_cast at count ⊢
  simp only [List.map_cons, List.map_nil, List.sum_cons, List.sum_nil, List.length_singleton]
  push_cast
  field_simp
  ring

private theorem moments_of (points : List (ℝ × ℝ)) : Moments.of points =
    ⟨points.length, mean Prod.fst points, mean Prod.snd points, centredSum Prod.fst points,
      centredSum Prod.snd points⟩ := by
  induction points using List.reverseRecOn with
  | nil => simp [Moments.of, Moments.empty, mean, centredSum]
  | append_singleton points p ih =>
    have step : Moments.of (points ++ [p]) = (Moments.of points).add p := by
      simp [Moments.of, List.foldl_append]
    rw [step, ih, Moments.add, centredSum_concat, centredSum_concat, mean_concat Prod.fst,
      mean_concat Prod.snd, List.length_append]
    rfl

theorem moments_line? (points : List (ℝ × ℝ)) : (Moments.of points).line? = leastSquares points := by
  have finite (x : ℝ) : Scalar.isFinite x = true := rfl
  rw [moments_of, Moments.line?]
  simp only [finite, if_true]
  rcases leastSquares_cases points with ⟨together, none⟩ | ⟨apart, some⟩
  · rw [none, if_pos]
    have flat : Scalar.isPositive (centredSum Prod.fst points) = false := by
      rw [centredSum_eq_zero_iff.mpr together, Bool.eq_false_iff, ne_eq, Scalar.Real.isPositive_iff]
      exact lt_irrefl 0
    simp [flat]
  · have wide := (Scalar.Real.isPositive_iff _).mpr (centredSum_fst_pos apart)
    have many := apart.two_le.not_gt
    rw [some, if_neg]
    simp [wide, many]

/-! ## Outliers left out -/

theorem isInlier_iff (l : Line ℝ) (bound : ℝ) (p : ℝ × ℝ) :
    isInlier l bound p = true ↔ |l.residual p| ≤ bound := by
  rw [isInlier, Bool.not_eq_true', Scalar.Real.lt_eq_false_iff]
  exact Iff.rfl

theorem spread_eq_sqrt (l : Line ℝ) (points : List (ℝ × ℝ)) :
    spread l points = √(l.squaredError points / points.length) := by
  simp only [spread_eq, mean, Line.squaredError, sq]

/-- If the spread is nothing, all points are on the line. -/
theorem isInlier_of_tight {k : ℝ} (positive : 0 < k) {l : Line ℝ}
    (tight : Scalar.isPositive (k * spread l points) = false) :
    ∀ p ∈ points, isInlier l (k * spread l points) p = true := by
  intro p present
  have nonneg : 0 ≤ spread l points := by
    rw [spread_eq_sqrt]
    exact Real.sqrt_nonneg _
  have none : spread l points = 0 := by
    rw [Bool.eq_false_iff, ne_eq, Scalar.Real.isPositive_iff, mul_pos_iff_of_pos_left positive] at tight
    exact le_antisymm (not_lt.mp tight) nonneg
  have count : (0 : ℝ) < points.length := Nat.cast_pos.mpr (List.length_pos_of_mem present)
  have error : l.squaredError points ≤ 0 := by
    have root := none
    rw [spread_eq_sqrt, Real.sqrt_eq_zero', div_nonpos_iff] at root
    rcases root with ⟨_, few⟩ | ⟨small, _⟩
    · exact absurd few (not_le.mpr count)
    · exact small
  rw [isInlier_iff, none, mul_zero, eq_zero_of_sum_squares error p present, abs_zero]

/-- A fit that gives a line gives the closest one to the points within `k` times the spread of the closest
line to all, and there is one unless those have a single abscissa. -/
theorem fit_is_closest_to_inliers {k : ℝ} (positive : 0 < k) (points : List (ℝ × ℝ)) :
    (¬Apart points → ofPoints k points = ⟨⟨0, 0⟩, points.length, true⟩) ∧
      (Apart points → ∃ first : Line ℝ, first.Closest points ∧
        let inliers := points.filter fun p =>
          |first.residual p| ≤ k * √(first.squaredError points / points.length)
        (ofPoints k points).used = inliers.length ∧
          (¬Apart inliers → ofPoints k points = ⟨⟨0, 0⟩, inliers.length, true⟩) ∧
          (Apart inliers → (ofPoints k points).degenerate = false ∧
            (ofPoints k points).toLine.Closest inliers)) ∧
      ∀ kept : List (ℝ × ℝ), (Moments.of kept).line? = leastSquares kept := by
  refine ⟨fun together => ?_, fun apart => ?_, moments_line?⟩
  · obtain ⟨_, none⟩ | ⟨apart, _⟩ := leastSquares_cases points
    · rw [ofPoints, none]
      rfl
    · contradiction
  obtain ⟨together, _⟩ | ⟨_, fitted⟩ := leastSquares_cases points
  · contradiction
  generalize (⟨_, _⟩ : Line ℝ) = first at fitted
  have closest := leastSquares_closest apart fitted
  refine ⟨first, closest, ?_⟩
  have same : (points.filter fun p => decide
      (|first.residual p| ≤ k * √(first.squaredError points / points.length))) =
      points.filter (isInlier first (k * spread first points)) := by
    refine List.filter_congr fun p _ => ?_
    rw [Bool.eq_iff_iff, decide_eq_true_iff, isInlier_iff, spread_eq_sqrt]
  rw [same]
  intro inliers
  rw [ofPoints, fitted]
  dsimp only
  -- If all points are kept, the first line is not fitted again.
  by_cases whole : Scalar.isPositive (k * spread first points) = false ∨
      points.all (isInlier first (k * spread first points)) = true
  · have all : ∀ p ∈ points, isInlier first (k * spread first points) p = true := by
      rcases whole with tight | inside
      · exact isInlier_of_tight positive tight
      · exact List.all_eq_true.mp inside
    have kept : inliers = points := List.filter_eq_self.mpr all
    rw [if_pos (by simpa using whole), kept]
    exact ⟨rfl, fun together => absurd apart together, fun _ => ⟨rfl, closest⟩⟩
  · rw [if_neg (by simpa using whole)]
    rw [moments_line?]
    obtain ⟨together, none⟩ | ⟨spread, some⟩ := leastSquares_cases inliers
    · rw [none]
      exact ⟨rfl, fun _ => rfl, fun spread => absurd spread together⟩
    · have refined := leastSquares_closest spread some
      rw [some]
      exact ⟨rfl, fun together => absurd spread together, fun _ => ⟨rfl, refined⟩⟩

/-- The spike lifts the first line to 1, is five off it with a spread of the root of five, and is left out. -/
theorem fit_is_closest_to_inliers_spike :
    let spike : List (ℝ × ℝ) := [(0, 0), (1, 0), (2, 6), (2, 0), (3, 0), (4, 0)]
    (0 : ℝ) < 2 ∧ (ofPoints 2 spike).used = 5 ∧
      (ofPoints 2 spike).degenerate = false ∧ (ofPoints 2 spike).toLine = ⟨0, 0⟩ := by
  intro spike
  have apart : Apart spike := ⟨(0, 0), by simp [spike], (1, 0), by simp [spike], by norm_num⟩
  obtain ⟨_, fit, _⟩ := fit_is_closest_to_inliers (k := 2) two_pos spike
  obtain ⟨first, closest, used, _, line⟩ := fit apart
  have through : leastSquares spike = some ⟨0, 1⟩ := by
    norm_num [leastSquares_eq, centredSum, mean, spike]
  have lifted : first = ⟨0, 1⟩ :=
    ((leastSquares_closest apart through).unique first (closest.least _))
  have error : first.squaredError spike / spike.length = 5 := by
    norm_num [lifted, Line.squaredError, Line.residual, spike]
  have far : ¬(5 : ℝ) ≤ 2 * √5 := by
    have root := Real.sq_sqrt (show (0 : ℝ) ≤ 5 by norm_num)
    nlinarith [Real.sqrt_nonneg 5]
  have near : (1 : ℝ) ≤ 2 * √5 := by
    have root : (1 : ℝ) ≤ √5 := Real.one_le_sqrt.mpr (by norm_num)
    linarith
  have kept : (spike.filter fun p => decide
      (|first.residual p| ≤ 2 * √(first.squaredError spike / spike.length))) =
      [(0, 0), (1, 0), (2, 0), (3, 0), (4, 0)] := by
    rw [error, lifted]
    norm_num [spike, Line.residual, near, far]
  rw [kept] at used line
  obtain ⟨sound, refined⟩ := line ⟨(0, 0), by simp, (1, 0), by simp, by norm_num⟩
  have exact : (⟨0, 0⟩ : Line ℝ) = (ofPoints 2 spike).toLine := by
    apply refined.unique
    refine le_trans ?_ (sum_squares_nonneg _ _)
    norm_num [Line.squaredError, Line.residual]
  exact ⟨two_pos, used, sound, exact.symm⟩

end LineFit
end Calorimetry
