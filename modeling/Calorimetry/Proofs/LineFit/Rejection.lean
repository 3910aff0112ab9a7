import Calorimetry.Proofs.LineFit.LeastSquares

/-! How many points a fit can leave out. Each of them is farther off the line than `k` times the spread, and the
squares of all distances come to the square of the spread for each point. So they are fewer than one in
`k ^ 2`, and of a few points none is left out. -/

namespace Calorimetry.LineFit
variable {points : List (ℝ × ℝ)} {k : ℝ} {l : Line ℝ}

/-- The points that the line is fitted to in the end, if `l` is the first line. -/
noncomputable def inliers (k : ℝ) (l : Line ℝ) (points : List (ℝ × ℝ)) : List (ℝ × ℝ) :=
  points.filter (isInlier l (k * spread l points))

noncomputable def outliers (k : ℝ) (l : Line ℝ) (points : List (ℝ × ℝ)) : List (ℝ × ℝ) :=
  points.filter fun p => !isInlier l (k * spread l points) p

private theorem length_inliers_add (k : ℝ) (l : Line ℝ) (points : List (ℝ × ℝ)) :
    (inliers k l points).length + (outliers k l points).length = points.length :=
  (List.length_eq_length_filter_add _).symm

/-- A fit rests on the inliers, and is only degenerate if they have a single abscissa. -/
theorem ofPoints_inliers (positive : 0 < k) (fitted : leastSquares points = some l) :
    (ofPoints k points).used = (inliers k l points).length ∧
      (Apart (inliers k l points) → (ofPoints k points).degenerate = false) := by
  rw [ofPoints, fitted]
  dsimp only
  split
  · next whole =>
    have all : ∀ p ∈ points, isInlier l (k * spread l points) p = true := by
      rcases Bool.or_eq_true_iff.mp whole with tight | inside
      · exact isInlier_of_tight positive (Bool.not_eq_true' _ |>.mp tight)
      · exact List.all_eq_true.mp inside
    rw [inliers, List.filter_eq_self.mpr all]
    exact ⟨rfl, fun _ => rfl⟩
  · rw [inliers, moments_line?]
    obtain ⟨together, none⟩ | ⟨_, refined⟩ :=
      leastSquares_cases (points.filter (isInlier l (k * spread l points)))
    · rw [none]
      exact ⟨rfl, fun apart => absurd apart together⟩
    · rw [refined]
      exact ⟨rfl, fun _ => rfl⟩

theorem used_add_outliers (positive : 0 < k) (apart : Apart points) :
    ∃ l, (ofPoints k points).used + (outliers k l points).length = points.length := by
  obtain ⟨together, _⟩ | ⟨_, fitted⟩ := leastSquares_cases points
  · contradiction
  generalize (⟨_, _⟩ : Line ℝ) = first at fitted
  refine ⟨first, ?_⟩
  rw [(ofPoints_inliers positive fitted).1]
  exact length_inliers_add k first points

/-- The outliers alone have a greater sum of squares than their number accounts for. -/
private theorem outliers_squares_lt (positive : 0 ≤ k) (some : outliers k l points ≠ []) :
    (outliers k l points).length * (k * spread l points) ^ 2 < l.squaredError points := by
  have spread_nonneg : 0 ≤ spread l points := by
    rw [spread_eq_sqrt]
    exact Real.sqrt_nonneg _
  have far : ∀ p ∈ outliers k l points, (k * spread l points) ^ 2 < l.residual p ^ 2 := by
    intro p member
    have off := (List.mem_filter.mp member).2
    rw [Bool.not_eq_true', Bool.eq_false_iff, ne_eq, isInlier_iff, not_le] at off
    rw [← sq_abs (l.residual p)]
    exact pow_lt_pow_left₀ off (mul_nonneg positive spread_nonneg) two_ne_zero
  calc (outliers k l points).length * (k * spread l points) ^ 2
      = ((outliers k l points).map fun _ => (k * spread l points) ^ 2).sum := by simp
    _ < ((outliers k l points).map fun p => l.residual p ^ 2).sum :=
        List.sum_lt_sum_of_ne_nil some _ _ far
    _ ≤ (points.map fun p => l.residual p ^ 2).sum := by
        refine (List.filter_sublist.map _).sum_le_sum ?_
        intro x member
        obtain ⟨p, _, rfl⟩ := List.mem_map.mp member
        exact sq_nonneg _

theorem length_outliers_lt (positive : 0 < k) (some : outliers k l points ≠ []) :
    ((outliers k l points).length : ℝ) < points.length / k ^ 2 := by
  have squares := outliers_squares_lt positive.le some
  have count : (0 : ℝ) < points.length := by
    obtain ⟨p, member⟩ := List.exists_mem_of_ne_nil _ some
    exact Nat.cast_pos.mpr (List.length_pos_of_mem (List.mem_filter.mp member).1)
  have error : 0 < l.squaredError points := lt_of_le_of_lt (by positivity) squares
  have square : spread l points ^ 2 = l.squaredError points / points.length := by
    rw [spread_eq_sqrt, Real.sq_sqrt (div_nonneg error.le count.le)]
  rw [mul_pow, square] at squares
  have scaled : (outliers k l points).length * k ^ 2 * l.squaredError points <
      points.length * l.squaredError points := by
    have product := mul_lt_mul_of_pos_right squares count
    calc (outliers k l points).length * k ^ 2 * l.squaredError points
        = (outliers k l points).length * (k ^ 2 * (l.squaredError points / points.length)) *
            points.length := by field_simp
      _ < l.squaredError points * points.length := product
      _ = points.length * l.squaredError points := mul_comm _ _
  rw [lt_div_iff₀ (pow_pos positive 2)]
  exact lt_of_mul_lt_mul_right scaled error.le

/-- Of points that are no more than `k ^ 2` none is left out. -/
theorem outliers_eq_nil (positive : 0 < k) (few : (points.length : ℝ) ≤ k ^ 2) :
    outliers k l points = [] := by
  by_contra some
  have fewer := length_outliers_lt positive some
  have one : (1 : ℝ) ≤ (outliers k l points).length :=
    Nat.one_le_cast.mpr (List.length_pos_of_ne_nil some)
  have most : (points.length : ℝ) / k ^ 2 ≤ 1 := (div_le_one (pow_pos positive 2)).mpr few
  linarith

private theorem two_le_inliers (positive : 0 < k) (large : 2 ≤ k ^ 2) (l : Line ℝ) (two : 2 ≤ points.length) :
    2 ≤ (inliers k l points).length := by
  have parts := length_inliers_add k l points
  by_cases none : outliers k l points = []
  · rw [none, List.length_nil] at parts
    omega
  · have fewer := length_outliers_lt positive none
    have half : (points.length : ℝ) / k ^ 2 ≤ points.length / 2 :=
      div_le_div_of_nonneg_left (Nat.cast_nonneg _) two_pos large
    have most : (2 * (outliers k l points).length : ℝ) < points.length := by linarith
    have most : 2 * (outliers k l points).length < points.length := by exact_mod_cast most
    omega

private theorem apart_of_increasing (increasing : points.Pairwise fun p q => p.1 < q.1)
    (two : 2 ≤ points.length) : Apart points := by
  match points with
  | [] => simp at two
  | [_] => simp at two
  | p :: q :: rest =>
    refine ⟨p, List.mem_cons_self, q, List.mem_cons_of_mem p List.mem_cons_self, ?_⟩
    exact ((List.pairwise_cons.mp increasing).1 q List.mem_cons_self).ne

theorem degenerate_eq_false (positive : 0 < k) (large : 2 ≤ k ^ 2)
    (increasing : points.Pairwise fun p q => p.1 < q.1) (two : 2 ≤ points.length) :
    (ofPoints k points).degenerate = false := by
  obtain ⟨together, _⟩ | ⟨_, fitted⟩ := leastSquares_cases points
  · exact absurd (apart_of_increasing increasing two) together
  apply (ofPoints_inliers positive fitted).2
  exact apart_of_increasing (increasing.sublist List.filter_sublist)
    (two_le_inliers positive large _ two)

end Calorimetry.LineFit
