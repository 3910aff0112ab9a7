import Calorimetry.Proofs.Scalar.Checked
import Calorimetry.LineFit
import Calorimetry.Proofs.Table

/-! The powers that a table gives over exact readings. A slope is looked up between two neighbouring points: the
first of them is not above it unless the two are the first in the table, and the second is above it unless
they are the last. So the powers go along straight lines from point to point, step up where points have one
slope, and never fall. -/

namespace Calorimetry

namespace Point
variable {a b : Point ℝ} {x : ℝ}

/-- Neither the slope nor the power falls from `a` to `b`. -/
structure Ordered (a b : Point ℝ) : Prop where
  slope : a.slope ≤ b.slope
  power : a.power ≤ b.power

instance : IsTrans (Point ℝ) Ordered where
  trans _ _ _ first second :=
    ⟨first.slope.trans second.slope, first.power.trans second.power⟩

private theorem interpolate_of_eq (step : a.slope = b.slope) :
    interpolate a b x = if x < a.slope then a.power else b.power := by
  have none : Scalar.eq (b.slope - a.slope) 0 = true := decide_eq_true (sub_eq_zero.mpr step.symm)
  rw [interpolate]
  simp only [none, if_true, Scalar.Real.lt_iff]

private theorem interpolate_of_lt (wide : a.slope < b.slope) :
    interpolate a b x =
      a.power + (x - a.slope) * (b.power - a.power) / (b.slope - a.slope) := by
  have some : Scalar.eq (b.slope - a.slope) 0 = false := decide_eq_false (sub_pos.mpr wide).ne'
  rw [interpolate]
  simp only [some, Bool.false_eq_true, if_false]

def InLine (a b p : Point ℝ) : Prop :=
  ∃ l : Line ℝ, ∀ q ∈ [a, b, p], q.power = l.slope * q.slope + l.intercept

private theorem inLine_interpolate (wide : a.slope < b.slope) (x : ℝ) :
    InLine a b ⟨x, interpolate a b x⟩ := by
  have width : b.slope - a.slope ≠ 0 := (sub_pos.mpr wide).ne'
  let grade := (b.power - a.power) / (b.slope - a.slope)
  refine ⟨⟨grade, a.power - grade * a.slope⟩, ?_⟩
  intro q member
  simp only [List.mem_cons, List.not_mem_nil, or_false] at member
  rcases member with rfl | rfl | rfl
  · ring
  · simp only [grade]
    field_simp
    ring
  · rw [interpolate_of_lt wide]
    simp only [grade]
    field_simp
    ring

private theorem Ordered.interpolate_mono (ordered : a.Ordered b) : Monotone (interpolate a b) := by
  intro x y before
  rcases ordered.slope.eq_or_lt with step | wide
  · rw [interpolate_of_eq step, interpolate_of_eq step]
    split
    · split
      · exact le_refl _
      · exact ordered.power
    · next later =>
      rw [if_neg (fun earlier => later (lt_of_le_of_lt before earlier))]
  · rw [interpolate_of_lt wide, interpolate_of_lt wide]
    have width : 0 < b.slope - a.slope := sub_pos.mpr wide
    have climb : 0 ≤ b.power - a.power := sub_nonneg.mpr ordered.power
    gcongr

private theorem interpolate_left (wide : a.slope < b.slope) : interpolate a b a.slope = a.power := by
  rw [interpolate_of_lt wide, sub_self, zero_mul, zero_div, add_zero]

private theorem Ordered.interpolate_right (ordered : a.Ordered b) : interpolate a b b.slope = b.power := by
  rcases ordered.slope.eq_or_lt with step | wide
  · rw [interpolate_of_eq step, if_neg step.not_gt]
  · rw [interpolate_of_lt wide, mul_div_cancel_left₀ _ (sub_pos.mpr wide).ne', add_sub_cancel]

private theorem Ordered.le_interpolate (ordered : a.Ordered b) (reached : a.slope ≤ x) :
    a.power ≤ interpolate a b x := by
  rcases ordered.slope.eq_or_lt with step | wide
  · rw [interpolate_of_eq step, if_neg reached.not_gt]
    exact ordered.power
  · rw [← interpolate_left wide]
    exact ordered.interpolate_mono reached

private theorem Ordered.interpolate_le (ordered : a.Ordered b) (ahead : x ≤ b.slope) :
    interpolate a b x ≤ b.power := by
  rw [← ordered.interpolate_right]
  exact ordered.interpolate_mono ahead

end Point

namespace Table

section
variable {α : Type} [Scalar α]

/-- Position of the first one of the two points between which a slope is looked up. -/
def position (points : List (Point α)) (slope : α) : Nat :=
  max 1 (min (points.findIdx fun p => !Scalar.le p.slope slope) (points.length - 1)) - 1

private theorem position_lt {points : List (Point α)} (two : 2 ≤ points.length) (slope : α) :
    position points slope + 1 < points.length := by
  rw [position]
  omega

private theorem powerFor?_eq_some {t : Table α} (two : 2 ≤ t.points.length) {slope : α} {a b : Point α}
    (left : t.points[position t.points slope]? = some a)
    (right : t.points[position t.points slope + 1]? = some b) :
    t.powerFor? slope = some (Point.interpolate a b slope) := by
  obtain ⟨_ | ⟨p, _ | ⟨q, rest⟩⟩, sound⟩ := t
  · simp at two
  · simp at two
  · rw [position, Nat.sub_add_cancel (Nat.le_max_left _ _)] at right
    rw [position] at left
    rw [powerFor?]
    simp only [left, right]

private theorem le_of_position {points : List (Point α)} {slope : α} {a : Point α}
    (found : points[position points slope]? = some a) (later : 0 < position points slope) :
    Scalar.le a.slope slope = true := by
  obtain ⟨bound, rfl⟩ := List.getElem?_eq_some_iff.mp found
  have before : position points slope < points.findIdx fun p => !Scalar.le p.slope slope := by
    rw [position] at later ⊢
    omega
  simpa using List.not_of_lt_findIdx before

private theorem exists_above_of_position {points : List (Point α)} {slope : α}
    (earlier : position points slope + 2 < points.length) :
    ∃ j p, j ≤ position points slope + 1 ∧ points[j]? = some p ∧ Scalar.le p.slope slope = false := by
  have inside : points.findIdx (fun p => !Scalar.le p.slope slope) < points.length := by
    rw [position] at earlier
    omega
  have above := List.findIdx_getElem (w := inside)
  refine ⟨_, _, ?_, List.getElem?_eq_getElem inside, by simpa using above⟩
  rw [position] at earlier ⊢
  omega

end

variable {points : List (Point ℝ)} {a b : Point ℝ} {i j : Nat} {x y : ℝ}

private theorem pairwise_ordered (sound : Point.fault? points = none) : points.Pairwise Point.Ordered := by
  have chain := ((Point.fault?_eq_none_iff points).mp sound).2
  refine List.isChain_iff_pairwise.mp (chain.imp ?_)
  intro a b both
  exact ⟨(Scalar.Real.lt_eq_false_iff _ _).mp both.1, (Scalar.Real.lt_eq_false_iff _ _).mp both.2⟩

private theorem ordered_of_le (sorted : points.Pairwise Point.Ordered) (first : points[i]? = some a)
    (second : points[j]? = some b) (before : i ≤ j) : a.Ordered b := by
  rcases Nat.lt_or_eq_of_le before with less | rfl
  · obtain ⟨bound, rfl⟩ := List.getElem?_eq_some_iff.mp first
    obtain ⟨bound', rfl⟩ := List.getElem?_eq_some_iff.mp second
    exact List.pairwise_iff_getElem.mp sorted i j bound bound' less
  · cases Option.some.inj (first.symm.trans second)
    exact ⟨le_refl _, le_refl _⟩

/-- The slope `x` is looked up between the points `a` and `b`, of which the first one has position `i`. -/
structure Bracket (points : List (Point ℝ)) (x : ℝ) (i : Nat) (a b : Point ℝ) : Prop where
  left : points[i]? = some a
  right : points[i + 1]? = some b
  reached : 0 < i → a.slope ≤ x
  ahead : i + 2 < points.length → x < b.slope

private theorem exists_bracket (sorted : points.Pairwise Point.Ordered) (two : 2 ≤ points.length) (x : ℝ) :
    ∃ a b, Bracket points x (position points x) a b := by
  have bound := position_lt two x
  have left : points[position points x]? = some _ := List.getElem?_eq_getElem (by omega)
  have right : points[position points x + 1]? = some _ := List.getElem?_eq_getElem bound
  refine ⟨_, _, left, right, ?_, ?_⟩
  · intro later
    exact of_decide_eq_true (le_of_position left later)
  · intro earlier
    obtain ⟨j, p, before, there, above⟩ := exists_above_of_position earlier
    have above : x < p.slope := not_le.mp (of_decide_eq_false above)
    exact lt_of_lt_of_le above (ordered_of_le sorted there right before).slope

private theorem Bracket.position_le {c d : Point ℝ} (first : Bracket points x i a b)
    (second : Bracket points y j c d) (sorted : points.Pairwise Point.Ordered) (before : x ≤ y) :
    i ≤ j := by
  by_contra behind
  obtain ⟨bound, _⟩ := List.getElem?_eq_some_iff.mp first.right
  have ordered := (ordered_of_le sorted second.right first.left (by omega)).slope
  have reached := first.reached (by omega)
  have ahead := second.ahead (by omega)
  linarith

private theorem powerFor?_of_bracket {t : Table ℝ} (two : 2 ≤ t.points.length)
    (bracket : Bracket t.points x i a b) : t.powerFor? x = some (Point.interpolate a b x) := by
  have sorted := pairwise_ordered t.sound
  obtain ⟨c, d, found⟩ := exists_bracket sorted two x
  have same : i = position t.points x :=
    Nat.le_antisymm (bracket.position_le found sorted le_rfl) (found.position_le bracket sorted le_rfl)
  exact powerFor?_eq_some two (same ▸ bracket.left) (same ▸ bracket.right)

private theorem powerFor?_mono {t : Table ℝ} (two : 2 ≤ t.points.length) (before : x ≤ y) {u v : ℝ}
    (first : t.powerFor? x = some u) (second : t.powerFor? y = some v) : u ≤ v := by
  have sorted := pairwise_ordered t.sound
  obtain ⟨a, b, bracket⟩ := exists_bracket sorted two x
  obtain ⟨c, d, bracket'⟩ := exists_bracket sorted two y
  rw [powerFor?_of_bracket two bracket, Option.some.injEq] at first
  rw [powerFor?_of_bracket two bracket', Option.some.injEq] at second
  have ab := ordered_of_le sorted bracket.left bracket.right (Nat.le_succ _)
  have cd := ordered_of_le sorted bracket'.left bracket'.right (Nat.le_succ _)
  rw [← first, ← second]
  rcases Nat.lt_or_eq_of_le (bracket.position_le bracket' sorted before) with earlier | same
  · -- The point where the first bracket ends lies between the two slopes.
    have bound := position_lt two y
    calc Point.interpolate a b x
        ≤ b.power := ab.interpolate_le (bracket.ahead (by omega)).le
      _ ≤ c.power := (ordered_of_le sorted bracket.right bracket'.left earlier).power
      _ ≤ Point.interpolate c d y := cd.le_interpolate (bracket'.reached (by omega))
  · have left := bracket.left
    have right := bracket.right
    rw [same, bracket'.left, Option.some.injEq] at left
    rw [same, bracket'.right, Option.some.injEq] at right
    rw [left, right] at cd ⊢
    exact cd.interpolate_mono before

/-- A power for every slope that never falls. Where it steps up, the slope has the power of the last point
with it. Neighbouring points of different slope are the last one with the lower slope and the first one with
the upper slope, and between them, as well as beyond the ends of the table, the power goes along a straight
line; but beyond an end with two points of one slope it stays what it is there. -/
structure Interpolates (points : List (Point ℝ)) (power : ℝ → ℝ) : Prop where
  monotone : Monotone power
  at_slope : ∀ before p after, points = before ++ p :: after → (∀ q ∈ after, q.slope ≠ p.slope) →
    power p.slope = p.power
  between : ∀ before a b after, points = before ++ a :: b :: after → ∀ x, a.slope < x → x < b.slope →
    Point.InLine a b ⟨x, power x⟩
  below : ∀ a b after, points = a :: b :: after → ∀ x < a.slope,
    (a.slope ≠ b.slope → Point.InLine a b ⟨x, power x⟩) ∧ (a.slope = b.slope → power x = a.power)
  above : ∀ before a b, points = before ++ [a, b] → ∀ x > b.slope,
    (a.slope ≠ b.slope → Point.InLine a b ⟨x, power x⟩) ∧ (a.slope = b.slope → power x = b.power)

private theorem bracket_of_split {before after : List (Point ℝ)} (split : points = before ++ a :: b :: after)
    (reached : before ≠ [] → a.slope ≤ x) (ahead : after ≠ [] → x < b.slope) :
    Bracket points x before.length a b := by
  subst split
  refine ⟨by simp, by simp, fun later => ?_, fun earlier => ?_⟩
  · exact reached (List.ne_nil_of_length_pos later)
  · simp only [List.length_append, List.length_cons] at earlier
    exact ahead (List.ne_nil_of_length_pos (by omega))

private theorem ordered_of_split (sorted : points.Pairwise Point.Ordered) {before after : List (Point ℝ)}
    (split : points = before ++ a :: b :: after) : a.Ordered b := by
  rw [split] at sorted
  exact (List.pairwise_cons.mp (List.pairwise_append.mp sorted).2.1).1 b List.mem_cons_self

section
variable {t : Table ℝ} {power : ℝ → ℝ} {before after : List (Point ℝ)}

/-- Between the neighbours `a` and `b`, and beyond them at the ends of the table. -/
private theorem power_of_split (two : 2 ≤ t.points.length) (given : ∀ x, t.powerFor? x = some (power x))
    (split : t.points = before ++ a :: b :: after) (reached : before ≠ [] → a.slope ≤ x)
    (ahead : after ≠ [] → x < b.slope) : power x = Point.interpolate a b x := by
  have bracket := bracket_of_split split reached ahead
  exact Option.some.inj ((given x).symm.trans (powerFor?_of_bracket two bracket))

private theorem power_at_slope (two : 2 ≤ t.points.length) (given : ∀ x, t.powerFor? x = some (power x))
    {p : Point ℝ} (split : t.points = before ++ p :: after) (last : ∀ q ∈ after, q.slope ≠ p.slope) :
    power p.slope = p.power := by
  have sorted := pairwise_ordered t.sound
  cases after with
  | cons q after =>
    have ordered := ordered_of_split sorted split
    have wide : p.slope < q.slope :=
      lt_of_le_of_ne ordered.slope (last q List.mem_cons_self).symm
    rw [power_of_split two given split (fun _ => le_rfl) fun _ => wide, Point.interpolate_left wide]
  | nil =>
    rcases List.eq_nil_or_concat before with rfl | ⟨earlier, a, rfl⟩
    · simp [split] at two
    rw [List.concat_eq_append, List.append_assoc] at split
    have ordered := ordered_of_split sorted split
    rw [power_of_split two given split (fun _ => ordered.slope) fun some => absurd rfl some,
      ordered.interpolate_right]

private theorem interpolates (two : 2 ≤ t.points.length) (given : ∀ x, t.powerFor? x = some (power x)) :
    Interpolates t.points power where
  monotone x y before := powerFor?_mono two before (given x) (given y)
  at_slope _ _ _ split last := power_at_slope two given split last
  between _ a b _ split x reached ahead := by
    rw [power_of_split two given split (fun _ => reached.le) fun _ => ahead]
    exact Point.inLine_interpolate (reached.trans ahead) x
  below a b after split x outside := by
    have split : t.points = [] ++ a :: b :: after := split
    have ordered := ordered_of_split (pairwise_ordered t.sound) split
    rw [power_of_split two given split (fun some => absurd rfl some)
      fun _ => lt_of_lt_of_le outside ordered.slope]
    refine ⟨fun differ => Point.inLine_interpolate (lt_of_le_of_ne ordered.slope differ) x, fun step => ?_⟩
    rw [Point.interpolate_of_eq step, if_pos outside]
  above before a b split x outside := by
    have ordered := ordered_of_split (pairwise_ordered t.sound) split
    rw [power_of_split two given split (fun _ => ordered.slope.trans outside.le)
      fun some => absurd rfl some]
    refine ⟨fun differ => Point.inLine_interpolate (lt_of_le_of_ne ordered.slope differ) x, fun step => ?_⟩
    rw [Point.interpolate_of_eq step, if_neg (step ▸ outside).not_gt]

end

end Table

/-! ## Division -/

namespace Point

def checked (p : Point ℝ) : Point CheckedReal := ⟨.of p.slope, .of p.power⟩

private theorem disorder?_checked (i : Nat) (points : List (Point ℝ)) :
    disorder? i (points.map checked) = disorder? i points := by
  induction points generalizing i with
  | nil => rfl
  | cons a rest ih =>
    cases rest with
    | nil => rfl
    | cons b rest =>
      rw [List.map_cons, List.map_cons, disorder?, disorder?, ← List.map_cons, ih]
      rfl

private theorem fault?_checked (points : List (Point ℝ)) : fault? (points.map checked) = fault? points := by
  rw [fault?, fault?, List.findIdx?_map, disorder?_checked]
  rfl

/-- A step is told from a slant before anything is divided. -/
private theorem interpolate_checked (a b : Point ℝ) (x : ℝ) :
    interpolate a.checked b.checked (.of x) = .of (interpolate a b x) := by
  have width : Scalar.eq (b.checked.slope - a.checked.slope) 0 = Scalar.eq (b.slope - a.slope) 0 := rfl
  rw [interpolate, interpolate, width]
  cases step : Scalar.eq (b.slope - a.slope) 0 with
  | true => exact (apply_ite CheckedReal.of _ _ _).symm
  | false =>
    simp only [Bool.false_eq_true, if_false]
    have quotient :
        (.of ((x - a.slope) * (b.power - a.power)) : CheckedReal) / (b.checked.slope - a.checked.slope) =
          .of ((x - a.slope) * (b.power - a.power) / (b.slope - a.slope)) :=
      CheckedReal.of_div (of_decide_eq_false step)
    exact congrArg (a.checked.power + ·) quotient

end Point

namespace Table

def checked (t : Table ℝ) : Table CheckedReal :=
  ⟨t.points.map Point.checked, (Point.fault?_checked t.points).trans t.sound⟩

private theorem position_checked (points : List (Point ℝ)) (x : ℝ) :
    position (points.map Point.checked) (.of x) = position points x := by
  rw [position, position, List.findIdx_map, List.length_map]
  rfl

private theorem powerFor?_checked {t : Table ℝ} (two : 2 ≤ t.points.length) (x : ℝ) :
    t.checked.powerFor? (.of x) = (t.powerFor? x).map .of := by
  have bound := position_lt two x
  have left : t.points[position t.points x]? = some _ := List.getElem?_eq_getElem (by omega)
  have right : t.points[position t.points x + 1]? = some _ := List.getElem?_eq_getElem bound
  rw [powerFor?_eq_some two left right, Option.map_some, ← Point.interpolate_checked]
  apply powerFor?_eq_some
  · simpa [checked] using two
  · rw [checked, position_checked, List.getElem?_map, left, Option.map_some]
  · rw [checked, position_checked, List.getElem?_map, right, Option.map_some]

/-- Over exact readings, a table of two points or more gives every slope a power that is interpolated between
its points, and divides by zero at none. -/
theorem power_is_interpolated {points : List (Point ℝ)} {t : Table ℝ} (made : ofPoints points = .ok t)
    (two : 2 ≤ points.length) :
    ∃ power : ℝ → ℝ, (∀ x, t.powerFor? x = some (power x)) ∧ Interpolates points power ∧
      ∀ x, t.checked.powerFor? (.of x) = some (.of (power x)) := by
  obtain ⟨_, same, rfl, _⟩ | ⟨e, refused, _⟩ := ofPoints_cases points
  · cases Except.ok.inj (made.symm.trans same)
    have total : ∀ x, ∃ y, t.powerFor? x = some y := by
      intro x
      obtain ⟨a, b, bracket⟩ := exists_bracket (pairwise_ordered t.sound) two x
      exact ⟨_, powerFor?_of_bracket two bracket⟩
    choose power given using total
    refine ⟨power, given, interpolates two given, fun x => ?_⟩
    rw [powerFor?_checked two, given, Option.map_some]
  · rw [refused] at made
    contradiction

-- The table steps up at its first slope and again inside.
theorem power_is_interpolated_steps :
    let points : List (Point ℝ) := [⟨0, 0⟩, ⟨0, 1⟩, ⟨1, 1⟩, ⟨1, 3⟩, ⟨2, 4⟩]
    ∃ t : Table ℝ, ofPoints points = .ok t ∧ t.powerFor? (-1) = some 0 ∧ t.powerFor? 0 = some 1 ∧
      t.powerFor? (1 / 2) = some 1 ∧ t.powerFor? 1 = some 3 ∧ t.powerFor? (3 / 2) = some (7 / 2) ∧
      t.powerFor? 3 = some 5 ∧ t.checked.powerFor? (.of 3) = some (.of 5) := by
  intro points
  have sound : Point.fault? points = none := by
    rw [Point.fault?_eq_none_iff]
    refine ⟨fun _ _ => rfl, ?_⟩
    norm_num [points, Scalar.Real.lt_eq_false_iff]
  have made : ofPoints points = .ok ⟨points, sound⟩ := ofPoints_points ⟨points, sound⟩
  obtain ⟨power, given, shape, checked⟩ := power_is_interpolated made (by decide)
  have first : power (-1) = 0 := (shape.below ⟨0, 0⟩ ⟨0, 1⟩ _ rfl (-1) (by norm_num)).2 rfl
  have second : power 0 = 1 := by
    refine shape.at_slope [⟨0, 0⟩] ⟨0, 1⟩ [⟨1, 1⟩, ⟨1, 3⟩, ⟨2, 4⟩] rfl ?_
    simp
  have third : power (1 / 2) = 1 := by
    obtain ⟨l, on⟩ := shape.between [⟨0, 0⟩] ⟨0, 1⟩ ⟨1, 1⟩ [⟨1, 3⟩, ⟨2, 4⟩] rfl (1 / 2) (by norm_num) (by norm_num)
    simp only [List.forall_mem_cons] at on
    linarith [on.1, on.2.1, on.2.2.1]
  have fourth : power 1 = 3 := by
    refine shape.at_slope [⟨0, 0⟩, ⟨0, 1⟩, ⟨1, 1⟩] ⟨1, 3⟩ [⟨2, 4⟩] rfl ?_
    simp
  have fifth : power (3 / 2) = 7 / 2 := by
    obtain ⟨l, on⟩ := shape.between [⟨0, 0⟩, ⟨0, 1⟩, ⟨1, 1⟩] ⟨1, 3⟩ ⟨2, 4⟩ [] rfl (3 / 2) (by norm_num) (by norm_num)
    simp only [List.forall_mem_cons] at on
    linarith [on.1, on.2.1, on.2.2.1]
  have last : power 3 = 5 := by
    obtain ⟨l, on⟩ := (shape.above [⟨0, 0⟩, ⟨0, 1⟩, ⟨1, 1⟩] ⟨1, 3⟩ ⟨2, 4⟩ rfl 3 (by norm_num)).1 (by norm_num)
    simp only [List.forall_mem_cons] at on
    linarith [on.1, on.2.1, on.2.2.1]
  refine ⟨_, made, ?_, ?_, ?_, ?_, ?_, ?_, ?_⟩
  · rw [given, first]
  · rw [given, second]
  · rw [given, third]
  · rw [given, fourth]
  · rw [given, fifth]
  · rw [given, last]
  · rw [checked, last]

end Table
end Calorimetry
