import Calorimetry.Proofs.LineFit

/-! Ordinates read through an amplifier, which multiplies them by a gain and adds a bias. The line through
the points goes with them, its residuals and their spread grow by the gain, and so the same points are left
out as outliers, whatever the bias is. -/

namespace Calorimetry

def amplify (gain bias y : ℝ) : ℝ := gain * y + bias

/-- The line through amplified ordinates. -/
noncomputable def Line.amplified (gain bias : ℝ) (l : Line ℝ) : Line ℝ :=
  ⟨gain * l.slope, amplify gain bias l.intercept⟩

private theorem Line.amplified_through (gain bias slope x y : ℝ) :
    (⟨slope, y - slope * x⟩ : Line ℝ).amplified gain bias =
      ⟨gain * slope, amplify gain bias y - gain * slope * x⟩ := by
  simp only [amplified, amplify, mk.injEq, true_and]
  ring

namespace LineFit
variable {gain : ℝ} (bias : ℝ)

/-- The point with its ordinate amplified. -/
abbrev amplifyPoint (gain bias : ℝ) : ℝ × ℝ → ℝ × ℝ := Prod.map id (amplify gain bias)

private theorem fst_amplifyPoint (gain bias : ℝ) : Prod.fst ∘ amplifyPoint gain bias = Prod.fst := rfl

/-! ## The line through all points -/

private theorem leastSquares_amplified (gain : ℝ) (points : List (ℝ × ℝ)) :
    leastSquares (points.map (amplifyPoint gain bias)) =
      (leastSquares points).map (Line.amplified gain bias) := by
  rw [leastSquares_eq, leastSquares_eq, List.length_map]
  by_cases few : points.length < 2
  · rw [if_pos (.inl few), if_pos (.inl few), Option.map_none]
  have some : points ≠ [] := by
    rintro rfl
    exact few Nat.zero_lt_two
  have abscissae : centredSum Prod.fst (points.map (amplifyPoint gain bias)) =
      centredSum Prod.fst points := centredSum_map Prod.fst (fst_amplifyPoint gain bias) points
  have ordinates : centredSum Prod.snd (points.map (amplifyPoint gain bias)) =
      gain * centredSum Prod.snd points := by
    rw [centredSum_map Prod.snd (fst_amplifyPoint gain bias)]
    exact centredSum_affine Prod.snd gain bias some
  have centre : mean Prod.snd (points.map (amplifyPoint gain bias)) =
      amplify gain bias (mean Prod.snd points) := by
    rw [mean_map]
    exact mean_affine Prod.snd gain bias some
  rw [abscissae, ordinates, centre, mean_map, fst_amplifyPoint, mul_div_assoc]
  split
  · rfl
  · rw [Option.map_some, Line.amplified_through]

private theorem residual_amplified (gain : ℝ) (l : Line ℝ) (p : ℝ × ℝ) :
    (l.amplified gain bias).residual (amplifyPoint gain bias p) = gain * l.residual p := by
  simp only [Line.residual, Line.amplified, amplify, Prod.map_fst, Prod.map_snd, id]
  ring

private theorem spread_amplified (positive : 0 < gain) (l : Line ℝ) (points : List (ℝ × ℝ)) :
    spread (l.amplified gain bias) (points.map (amplifyPoint gain bias)) = gain * spread l points := by
  have squares : (fun p => (l.amplified gain bias).residual p * (l.amplified gain bias).residual p) ∘
      amplifyPoint gain bias = fun p => gain * gain * (l.residual p * l.residual p) := by
    funext p
    rw [Function.comp_apply, residual_amplified, mul_mul_mul_comm]
  rw [spread_eq, spread_eq, mean_map, squares, mean_mul, Real.sqrt_mul (mul_self_nonneg gain),
    Real.sqrt_mul_self positive.le]

private theorem isInlier_amplified (positive : 0 < gain) (l : Line ℝ) (bound : ℝ) (p : ℝ × ℝ) :
    isInlier (l.amplified gain bias) (gain * bound) (amplifyPoint gain bias p) = isInlier l bound p := by
  have size : Scalar.abs (gain * l.residual p) = gain * Scalar.abs (l.residual p) := by
    change |gain * l.residual p| = gain * |l.residual p|
    rw [abs_mul, abs_of_pos positive]
  rw [isInlier, isInlier, residual_amplified, size, Scalar.Real.lt_mul_left positive]

/-! ## The line through those left -/

/-- Moments of amplified points beside those of the points themselves. Before the first point the mean of
ordinates is not yet one of them. -/
structure Moments.Amplified (gain bias : ℝ) (m m' : Moments ℝ) : Prop where
  count : m'.count = m.count
  meanX : m'.meanX = m.meanX
  meanY : 0 < m.count → m'.meanY = amplify gain bias m.meanY
  sumXX : m'.sumXX = m.sumXX
  sumXY : m'.sumXY = gain * m.sumXY

variable {bias : ℝ} {m m' : Moments ℝ}

private theorem Moments.Amplified.add (alike : Moments.Amplified gain bias m m') (p : ℝ × ℝ) :
    Moments.Amplified gain bias (m.add p) (m'.add (amplifyPoint gain bias p)) := by
  have centre : (m'.add (amplifyPoint gain bias p)).meanY = amplify gain bias (m.add p).meanY := by
    change m'.meanY + (amplify gain bias p.2 - m'.meanY) / ((m'.count + 1 : ℕ) : ℝ) =
      amplify gain bias (m.meanY + (p.2 - m.meanY) / ((m.count + 1 : ℕ) : ℝ))
    rw [alike.count]
    -- The first point is its own mean, so what stood there before does not matter.
    rcases Nat.eq_zero_or_pos m.count with first | later
    · rw [first]
      simp
    · rw [alike.meanY later, amplify, amplify, amplify]
      ring
  refine ⟨congrArg (· + 1) alike.count, ?_, fun _ => centre, ?_, ?_⟩
  · simp only [Moments.add, alike.count, alike.meanX, Prod.map_fst, id]
  · simp only [Moments.add, alike.count, alike.meanX, alike.sumXX, Prod.map_fst, id]
  · change m'.sumXY + (p.1 - m'.meanX) *
        (amplify gain bias p.2 - (m'.add (amplifyPoint gain bias p)).meanY) =
      gain * (m.sumXY + (p.1 - m.meanX) * (p.2 - (m.add p).meanY))
    rw [centre, alike.sumXY, alike.meanX, amplify, amplify]
    ring

private theorem Moments.Amplified.add_all (alike : Moments.Amplified gain bias m m') (points : List (ℝ × ℝ)) :
    Moments.Amplified gain bias (points.foldl .add m)
      ((points.map (amplifyPoint gain bias)).foldl .add m') := by
  induction points generalizing m m' with
  | nil => exact alike
  | cons p rest ih => exact ih (alike.add p)

private theorem Moments.Amplified.of (gain bias : ℝ) (points : List (ℝ × ℝ)) :
    Moments.Amplified gain bias (.of points) (.of (points.map (amplifyPoint gain bias))) := by
  have initial : Moments.Amplified gain bias .empty .empty :=
    ⟨rfl, rfl, fun some => absurd some (Nat.lt_irrefl 0), rfl, (mul_zero gain).symm⟩
  exact initial.add_all points

private theorem Moments.Amplified.line? (alike : Moments.Amplified gain bias m m') :
    m'.line? = m.line?.map (Line.amplified gain bias) := by
  have finite (x : ℝ) : Scalar.isFinite x = true := rfl
  rw [Moments.line?, Moments.line?, alike.count, alike.sumXX, alike.sumXY, alike.meanX]
  simp only [finite, if_true]
  split
  · rfl
  next enough =>
    have some : 0 < m.count := by
      simp only [Bool.or_eq_true, decide_eq_true_eq, not_or, Nat.not_lt] at enough
      exact Nat.lt_of_lt_of_le Nat.zero_lt_two enough.1
    rw [alike.meanY some, mul_div_assoc, Option.map_some, Line.amplified_through]

/-! ## The whole fit -/

/-- The slope grows by the gain, and the same points are left out. -/
theorem ofPoints_amplified (positive : 0 < gain) (bias k : ℝ) (points : List (ℝ × ℝ)) :
    let here := ofPoints k points
    let there := ofPoints k (points.map (amplifyPoint gain bias))
    there.slope = gain * here.slope ∧ there.used = here.used ∧ there.degenerate = here.degenerate := by
  intro here there
  simp only [here, there, ofPoints]
  rw [leastSquares_amplified, List.length_map]
  cases leastSquares points with
  | none => exact ⟨(mul_zero gain).symm, rfl, rfl⟩
  | some line =>
    have bound : k * spread (line.amplified gain bias) (points.map (amplifyPoint gain bias)) =
        gain * (k * spread line points) := by
      rw [spread_amplified bias positive, mul_left_comm]
    have inliers : isInlier (line.amplified gain bias) (gain * (k * spread line points)) ∘
        amplifyPoint gain bias = isInlier line (k * spread line points) :=
      funext (isInlier_amplified bias positive line _)
    -- The bound is zero for both fits or for neither, and the points beyond it are the same.
    dsimp only [Option.map_some]
    rw [bound, Scalar.Real.isPositive_mul_left positive, List.all_map, List.filter_map, inliers]
    split
    · exact ⟨rfl, rfl, rfl⟩
    · rw [(Moments.Amplified.of gain bias _).line?, List.length_map]
      cases (Moments.of (points.filter (isInlier line (k * spread line points)))).line? with
      | none => exact ⟨(mul_zero gain).symm, rfl, rfl⟩
      | some refined => exact ⟨rfl, rfl, rfl⟩

end LineFit
end Calorimetry
