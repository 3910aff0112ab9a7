import Calorimetry.Reporter
import Mathlib.Data.List.Nodup
import Mathlib.Data.Set.Card

/-! What is reported of all that a reporter is shown. It looks at starts only, so what it reports is right
as far as ended pulses with the same start are the same: each of them is then reported once, however often
it is shown, and nothing else is. -/

namespace Calorimetry
variable {α : Type}

def LocatedPulse.ended (shown : List (LocatedPulse α)) : Set (Pulse α) :=
  {p | p.phase ≠ .growing ∧ ∃ located ∈ shown, located.pulse = p}

namespace Reporter

/-- What is reported each time, when pulses are shown several times. -/
def reportAll (r : Reporter) : List (List (LocatedPulse α)) → List (List (LocatedPulse α))
  | [] => []
  | shown :: later => (r.report shown).1 :: (r.report shown).2.reportAll later

variable {r : Reporter} {p : LocatedPulse α}

private theorem report_cons_of_new (ended : p.pulse.phase ≠ .growing) (new : p.pulse.start ∉ r.seen)
    (later : List (LocatedPulse α)) :
    r.report (p :: later) = (p :: (report ⟨p.pulse.start :: r.seen⟩ later).1,
      (report ⟨p.pulse.start :: r.seen⟩ later).2) := by
  rw [report, if_neg (by simp [ended, new])]

private theorem report_cons_of_known (known : p.pulse.phase ≠ .growing → p.pulse.start ∈ r.seen)
    (later : List (LocatedPulse α)) : r.report (p :: later) = r.report later := by
  rw [report, if_pos]
  by_cases growing : p.pulse.phase = .growing
  · simp [growing]
  · simp [known growing]

private theorem report_append (r : Reporter) (shown later : List (LocatedPulse α)) :
    r.report (shown ++ later) = ((r.report shown).1 ++ ((r.report shown).2.report later).1,
      ((r.report shown).2.report later).2) := by
  induction shown generalizing r with
  | nil => rfl
  | cons p rest ih =>
    rw [List.cons_append]
    by_cases known : p.pulse.phase ≠ .growing → p.pulse.start ∈ r.seen
    · rw [report_cons_of_known known, report_cons_of_known known, ih]
    · obtain ⟨ended, new⟩ := Classical.not_imp.mp known
      rw [report_cons_of_new ended new, report_cons_of_new ended new, ih]
      rfl

/-- It makes no difference in how many parts pulses are shown. -/
theorem reportAll_flatten (r : Reporter) (shown : List (List (LocatedPulse α))) :
    (r.reportAll shown).flatten = (r.report shown.flatten).1 := by
  induction shown generalizing r with
  | nil => rfl
  | cons first later ih =>
    rw [reportAll, List.flatten_cons, List.flatten_cons, report_append, ih]

/-- What is reported is shown, ended and new, no start comes twice, and no new one is left out. -/
structure Reports (r : Reporter) (shown reported : List (LocatedPulse α)) : Prop where
  sound : ∀ p ∈ reported, p ∈ shown ∧ p.pulse.phase ≠ .growing ∧ p.pulse.start ∉ r.seen
  once : (reported.map (·.pulse.start)).Nodup
  all : ∀ p ∈ shown, p.pulse.phase ≠ .growing → p.pulse.start ∉ r.seen →
    p.pulse.start ∈ reported.map (·.pulse.start)

private theorem report_reports (r : Reporter) (shown : List (LocatedPulse α)) :
    r.Reports shown (r.report shown).1 := by
  induction shown generalizing r with
  | nil => exact ⟨List.forall_mem_nil _, List.nodup_nil, List.forall_mem_nil _⟩
  | cons p rest ih =>
    by_cases known : p.pulse.phase ≠ .growing → p.pulse.start ∈ r.seen
    · have later := ih r
      rw [report_cons_of_known known]
      refine ⟨?_, later.once, ?_⟩
      · intro q member
        obtain ⟨present, rest⟩ := later.sound q member
        exact ⟨List.mem_cons_of_mem _ present, rest⟩
      · intro q member finished other
        rcases List.mem_cons.mp member with rfl | behind
        · exact absurd (known finished) other
        · exact later.all q behind finished other
    · obtain ⟨ended, new⟩ := Classical.not_imp.mp known
      have later := ih ⟨p.pulse.start :: r.seen⟩
      -- The rest is shown to a reporter that has seen this start too.
      have unseen (t : Duration) : t ∉ p.pulse.start :: r.seen ↔ t ≠ p.pulse.start ∧ t ∉ r.seen := by
        rw [List.mem_cons, not_or]
      rw [report_cons_of_new ended new]
      refine ⟨?_, ?_, ?_⟩
      · intro q member
        rcases List.mem_cons.mp member with rfl | behind
        · exact ⟨List.mem_cons_self, ended, new⟩
        · obtain ⟨present, finished, other⟩ := later.sound q behind
          exact ⟨List.mem_cons_of_mem _ present, finished, ((unseen _).mp other).2⟩
      · refine List.nodup_cons.mpr ⟨?_, later.once⟩
        intro again
        obtain ⟨q, behind, same⟩ := List.mem_map.mp again
        exact ((unseen _).mp (later.sound q behind).2.2).1 same
      · intro q member finished other
        rw [List.map_cons, List.mem_cons]
        by_cases same : q.pulse.start = p.pulse.start
        · exact .inl same
        · right
          rcases List.mem_cons.mp member with rfl | behind
          · exact absurd rfl same
          · exact later.all q behind finished ((unseen _).mpr ⟨same, other⟩)

private theorem counts_add_up (reports : List (List (LocatedPulse α))) (total : Nat) :
    (reports.map List.length).foldl (· + ·) total = total + reports.flatten.length := by
  induction reports generalizing total with
  | nil => rfl
  | cons first later ih =>
    rw [List.map_cons, List.foldl_cons, ih, List.flatten_cons, List.length_append, Nat.add_assoc]

/-- Where the start of an ended pulse names it, all of them are reported and none of them twice. -/
theorem reportAll_of_named (shown : List (List (LocatedPulse α)))
    (named : ∀ p ∈ LocatedPulse.ended shown.flatten, ∀ q ∈ LocatedPulse.ended shown.flatten,
      p.start = q.start → p = q) :
    let reports := reportAll {} shown
    let reported := reports.flatten.map LocatedPulse.pulse
    reported.Nodup ∧ (∀ p, p ∈ reported ↔ p ∈ LocatedPulse.ended shown.flatten) ∧
      (reports.map List.length).foldl (· + ·) 0 = (LocatedPulse.ended shown.flatten).ncard := by
  intro reports reported
  have reporting := report_reports {} shown.flatten
  rw [← reportAll_flatten] at reporting
  have once : reported.Nodup := by
    apply List.Nodup.of_map Pulse.start
    rw [List.map_map]
    exact reporting.once
  have exactly (p : Pulse α) : p ∈ reported ↔ p ∈ LocatedPulse.ended shown.flatten := by
    constructor
    · intro member
      obtain ⟨located, given, rfl⟩ := List.mem_map.mp member
      obtain ⟨present, ended, _⟩ := reporting.sound located given
      exact ⟨ended, located, present, rfl⟩
    · rintro ⟨ended, located, present, rfl⟩
      obtain ⟨other, given, same⟩ :=
        List.mem_map.mp (reporting.all located present ended List.not_mem_nil)
      obtain ⟨there, finished, _⟩ := reporting.sound other given
      rw [named located.pulse ⟨ended, located, present, rfl⟩ other.pulse
        ⟨finished, other, there, rfl⟩ same.symm]
      exact List.mem_map_of_mem given
  refine ⟨once, exactly, ?_⟩
  classical
  have whole : LocatedPulse.ended shown.flatten = (reported.toFinset : Set (Pulse α)) := by
    ext p
    rw [← exactly p, List.coe_toFinset, Set.mem_ofPred_eq]
  rw [counts_add_up, whole, Set.ncard_coe_finset, List.toFinset_card_of_nodup once, List.length_map,
    Nat.zero_add]

end Reporter
end Calorimetry
