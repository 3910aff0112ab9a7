import Calorimetry.Proofs.Table

/-! The first fault of points that make no table. A point that is not finite comes before all else, wherever it
stands. Among finite points it is the first two neighbours that are out of step, and of these a falling slope
comes before a falling power. -/

namespace Calorimetry.Point
variable {α : Type} [Scalar α]

/-- The neighbours `a` and `b` are the first ones out of step. -/
structure FirstFall (points before : List (Point α)) (a b : Point α) (after : List (Point α)) : Prop where
  split : points = before ++ a :: b :: after
  inStep : (before ++ [a]).IsChain fun p q =>
    Scalar.lt q.slope p.slope = false ∧ Scalar.lt q.power p.power = false

/-- What is wrong with points is told by what comes before the place where it is. -/
inductive Faulty (points : List (Point α)) : ConfigError → Prop
  | notFinite {before : List (Point α)} {p : Point α} {after : List (Point α)}
      (split : points = before ++ p :: after) (finite : ∀ q ∈ before, q.isFinite = true)
      (broken : p.isFinite = false) : Faulty points (.nonFinitePoint before.length)
  | slopeFalls {before : List (Point α)} {a b : Point α} {after : List (Point α)}
      (finite : ∀ p ∈ points, p.isFinite = true) (first : FirstFall points before a b after)
      (falls : Scalar.lt b.slope a.slope = true) : Faulty points (.unsortedTable before.length)
  | powerFalls {before : List (Point α)} {a b : Point α} {after : List (Point α)}
      (finite : ∀ p ∈ points, p.isFinite = true) (first : FirstFall points before a b after)
      (rises : Scalar.lt b.slope a.slope = false) (falls : Scalar.lt b.power a.power = true) :
      Faulty points (.nonMonotonicPower before.length)

private theorem FirstFall.cons {points before after : List (Point α)} {a b p : Point α}
    (first : FirstFall points before a b after)
    (step : ∀ q ∈ points.head?, Scalar.lt q.slope p.slope = false ∧ Scalar.lt q.power p.power = false) :
    FirstFall (p :: points) (p :: before) a b after where
  split := congrArg (p :: ·) first.split
  inStep := by
    rw [List.cons_append, List.isChain_cons]
    refine ⟨?_, first.inStep⟩
    have same : (before ++ [a]).head? = points.head? := by
      rw [first.split]
      cases before <;> rfl
    rwa [same]

private theorem findIdx?_of_split {before after : List (Point α)} {p : Point α}
    (finite : ∀ q ∈ before, q.isFinite = true) (broken : p.isFinite = false) :
    (before ++ p :: after).findIdx? (!·.isFinite) = some before.length := by
  have none : before.findIdx? (!·.isFinite) = none := by
    simpa [List.findIdx?_eq_none_iff] using finite
  rw [List.findIdx?_append, none, List.findIdx?_cons]
  simp [broken]

private theorem faulty_of_findIdx? {points : List (Point α)} {i : Nat}
    (found : points.findIdx? (!·.isFinite) = some i) : Faulty points (.nonFinitePoint i) := by
  obtain ⟨bound, broken, calm⟩ := List.findIdx?_eq_some_iff_getElem.mp found
  have split : points = points.take i ++ points[i] :: points.drop (i + 1) := by
    rw [← List.drop_eq_getElem_cons bound, List.take_append_drop]
  have finite : ∀ q ∈ points.take i, q.isFinite = true := by
    intro q member
    obtain ⟨j, early, rfl⟩ := List.mem_take_iff_getElem.mp member
    simpa using calm j (Nat.lt_of_lt_of_le early (Nat.min_le_left _ _))
  have place : (points.take i).length = i := List.length_take_of_le bound.le
  have faulty := Faulty.notFinite split finite (by simpa using broken)
  rwa [place] at faulty

private theorem disorder?_append (n : Nat) {before : List (Point α)} {a : Point α} (rest : List (Point α))
    (inStep : (before ++ [a]).IsChain fun p q =>
      Scalar.lt q.slope p.slope = false ∧ Scalar.lt q.power p.power = false) :
    disorder? n (before ++ a :: rest) = disorder? (n + before.length) (a :: rest) := by
  induction before generalizing n with
  | nil => rfl
  | cons p before ih =>
    obtain ⟨q, others, split⟩ : ∃ q others, before ++ a :: rest = q :: others := by
      cases before <;> exact ⟨_, _, rfl⟩
    have later := ih (n + 1) inStep.tail
    have step : Scalar.lt q.slope p.slope = false ∧ Scalar.lt q.power p.power = false := by
      cases before <;> cases split <;> exact (List.isChain_cons_cons.mp inStep).1
    rw [List.cons_append, split, disorder?, step.1, step.2, ← split, List.length_cons]
    simpa [Nat.add_assoc, Nat.add_comm 1] using later

private theorem firstFall_of_disorder? {n : Nat} {points : List (Point α)} {e : ConfigError}
    (fault : disorder? n points = some e) : ∃ before a b after, FirstFall points before a b after ∧
      (Scalar.lt b.slope a.slope = true ∧ e = .unsortedTable (n + before.length) ∨
        Scalar.lt b.slope a.slope = false ∧ Scalar.lt b.power a.power = true ∧
          e = .nonMonotonicPower (n + before.length)) := by
  induction points generalizing n with
  | nil => simp [disorder?] at fault
  | cons p rest ih =>
    cases rest with
    | nil => simp [disorder?] at fault
    | cons q rest =>
      rw [disorder?] at fault
      cases slope : Scalar.lt q.slope p.slope with
      | true =>
        rw [slope, if_pos rfl, Option.some.injEq] at fault
        exact ⟨[], p, q, rest, ⟨rfl, .singleton p⟩, .inl ⟨slope, fault.symm⟩⟩
      | false =>
        rw [slope, if_neg (by simp)] at fault
        cases power : Scalar.lt q.power p.power with
        | true =>
          rw [power, if_pos rfl, Option.some.injEq] at fault
          exact ⟨[], p, q, rest, ⟨rfl, .singleton p⟩, .inr ⟨slope, power, fault.symm⟩⟩
        | false =>
          rw [power, if_neg (by simp)] at fault
          obtain ⟨before, a, b, after, first, kind⟩ := ih fault
          have place : n + (p :: before).length = n + 1 + before.length := by
            rw [List.length_cons]
            omega
          refine ⟨p :: before, a, b, after, first.cons ?_, by rwa [place]⟩
          simp [slope, power]

/-- What is refused is told by the first fault. -/
theorem fault?_eq_some_iff (points : List (Point α)) (e : ConfigError) :
    fault? points = some e ↔ Faulty points e := by
  have sound (finite : ∀ p ∈ points, p.isFinite = true) : fault? points = disorder? 0 points := by
    have none : points.findIdx? (!·.isFinite) = none := by
      simpa [List.findIdx?_eq_none_iff] using finite
    rw [fault?, none]
  constructor
  · intro fault
    cases found : points.findIdx? (!·.isFinite) with
    | some i =>
      rw [fault?, found, Option.some.injEq] at fault
      rw [← fault]
      exact faulty_of_findIdx? found
    | none =>
      have finite : ∀ p ∈ points, p.isFinite = true := by
        simpa [List.findIdx?_eq_none_iff] using found
      rw [sound finite] at fault
      obtain ⟨before, a, b, after, first, ⟨falls, rfl⟩ | ⟨rises, falls, rfl⟩⟩ :=
        firstFall_of_disorder? fault
      · rw [Nat.zero_add]
        exact .slopeFalls finite first falls
      · rw [Nat.zero_add]
        exact .powerFalls finite first rises falls
  · intro faulty
    cases faulty with
    | notFinite split finite broken =>
      rw [fault?, split, findIdx?_of_split finite broken]
    | slopeFalls finite first falls =>
      rw [sound finite, first.split, disorder?_append 0 _ first.inStep, disorder?, falls, if_pos rfl,
        Nat.zero_add]
    | powerFalls finite first rises falls =>
      rw [sound finite, first.split, disorder?_append 0 _ first.inStep, disorder?, rises,
        if_neg (by simp), falls, if_pos rfl, Nat.zero_add]

end Calorimetry.Point
