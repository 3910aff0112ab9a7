import Mathlib.Analysis.Complex.Trigonometric
import Mathlib.Analysis.SpecialFunctions.Sqrt
import Calorimetry.Duration
import Calorimetry.Proofs.Scalar.Order

/-! Exact readings. Over the real numbers every value is finite, the total order is the usual one,
and times are converted to seconds without loss. -/

namespace Calorimetry

noncomputable instance : Scalar ℝ where
  emptySum := 0
  abs x := |x|
  sqrt := Real.sqrt
  sin := Real.sin
  cos := Real.cos
  lt x y := decide (x < y)
  le x y := decide (x ≤ y)
  eq x y := decide (x = y)
  isFinite _ := true
  order := compare

namespace Scalar.Real

theorem lt_iff (x y : ℝ) : Scalar.lt x y = true ↔ x < y := decide_eq_true_iff

theorem lt_eq_false_iff (x y : ℝ) : Scalar.lt x y = false ↔ y ≤ x :=
  decide_eq_false_iff_not.trans not_lt

theorem order_eq_lt_iff (x y : ℝ) : Scalar.order x y = .lt ↔ x < y := compare_lt_iff_lt

theorem lt_mul_left {gain : ℝ} (positive : 0 < gain) (x y : ℝ) :
    Scalar.lt (gain * x) (gain * y) = Scalar.lt x y :=
  decide_eq_decide.mpr (mul_lt_mul_iff_right₀ positive)

theorem isPositive_iff (x : ℝ) : Scalar.isPositive x = true ↔ 0 < x := by
  rw [Scalar.isPositive, Bool.and_eq_true]
  exact (and_iff_right rfl).trans (lt_iff 0 x)

theorem isPositive_mul_left {gain : ℝ} (positive : 0 < gain) (x : ℝ) :
    Scalar.isPositive (gain * x) = Scalar.isPositive x := by
  rw [Bool.eq_iff_iff, isPositive_iff, isPositive_iff]
  exact mul_pos_iff_of_pos_left positive

theorem foldl_add {β : Type} (f : β → ℝ) (xs : List β) (start : ℝ) :
    xs.foldl (fun sum x => sum + f x) start = start + (xs.map f).sum := by
  induction xs generalizing start with
  | nil => simp
  | cons x rest ih =>
    rw [List.foldl_cons, ih, List.map_cons, List.sum_cons]
    ring

theorem sumOf_eq {β : Type} (f : β → ℝ) (xs : List β) : Scalar.sumOf f xs = (xs.map f).sum :=
  (foldl_add f xs 0).trans (zero_add _)

theorem sum_eq (xs : List ℝ) : Scalar.sum xs = xs.sum := by
  rw [Scalar.sum, sumOf_eq, List.map_id]

private theorem lawful : Std.LawfulBCmp (compare : ℝ → ℝ → Ordering) := inferInstance

instance : Scalar.Ordered ℝ where
  eq_swap := lawful.eq_swap
  isLE_trans := lawful.isLE_trans
  not_lt {x y} ordered := (lt_eq_false_iff y x).mpr (lawful.isLE_iff_le.mp ordered)
  lt_or_lt {x y z} _ less := by
    simp only [lt_iff] at less ⊢
    rcases lt_or_ge x y with first | second
    · exact .inl first
    · exact .inr (lt_of_le_of_lt second less)

end Scalar.Real

theorem Duration.seconds_real (d : Duration) : (d.seconds : ℝ) = d / 10 ^ 9 := by
  have whole := Nat.div_add_mod d perSecond
  have parts : ((d / perSecond : ℕ) : ℝ) * 10 ^ 9 + ((d % perSecond : ℕ) : ℝ) = d := by
    exact_mod_cast (by rw [Nat.mul_comm]; exact whole)
  have scale : ((perSecond : ℕ) : ℝ) = 10 ^ 9 := by norm_num [perSecond]
  rw [seconds, scale, ← parts]
  field_simp

theorem Duration.seconds_real_pos {d : Duration} (positive : 0 < d) : (0 : ℝ) < d.seconds := by
  rw [seconds_real]
  positivity

end Calorimetry
