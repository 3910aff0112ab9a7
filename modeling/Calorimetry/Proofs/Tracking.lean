import Calorimetry.Meter
import Calorimetry.Proofs.Window

/-! What one sample does to the tracked pulses. Between samples at most the newest pulse is growing
and all others are frozen. A sample then either leaves them at rest and may begin a pulse, or lets
the growing one go on, or ends it and may begin the next one in the same step. -/

namespace Calorimetry
variable {α : Type}

namespace Pulses

/-- No pulse is about to end, and none but the newest still grows. -/
structure Settled (ps : Pulses α) : Prop where
  none_ending : ∀ p ∈ ps, p.phase ≠ .ending
  older_frozen : ∀ p ∈ ps.tail, p.phase = .frozen

private theorem Settled.cases {ps : Pulses α} (settled : ps.Settled) :
    (∀ p ∈ ps, p.phase = .frozen) ∨
      ∃ p older, ps = p :: older ∧ p.phase = .growing ∧ ∀ q ∈ older, q.phase = .frozen := by
  cases ps with
  | nil => exact Or.inl (fun _ member => absurd member List.not_mem_nil)
  | cons p older =>
    cases phase : p.phase with
    | growing => exact Or.inr ⟨p, older, rfl, phase, settled.older_frozen⟩
    | ending => exact absurd phase (settled.none_ending p List.mem_cons_self)
    | frozen =>
      left
      intro q member
      rcases List.mem_cons.mp member with rfl | older
      · exact phase
      · exact settled.older_frozen q older

theorem settled_of_frozen {ps : Pulses α} (frozen : ∀ p ∈ ps, p.phase = .frozen) : ps.Settled where
  none_ending p member := by simp [frozen p member]
  older_frozen p member := frozen p (List.mem_of_mem_tail member)

private theorem settled_cons {p : Pulse α} {older : Pulses α} (phase : p.phase ≠ .ending)
    (frozen : ∀ q ∈ older, q.phase = .frozen) : Settled (p :: older) where
  none_ending q member := by
    rcases List.mem_cons.mp member with rfl | behind
    · exact phase
    · simp [frozen q behind]
  older_frozen := frozen

theorem Settled.sublist {ps kept : Pulses α} (settled : ps.Settled) (sub : kept.Sublist ps) :
    kept.Settled where
  none_ending p member := settled.none_ending p (sub.subset member)
  older_frozen p member := settled.older_frozen p (sub.tail.subset member)

theorem revise_of_frozen (f : Pulse α → Option (Pulse α)) {ps : Pulses α}
    (frozen : ∀ p ∈ ps, p.phase = .frozen) : ps.revise f = ps := by
  cases ps with
  | nil => rfl
  | cons p older => rw [revise, if_pos (frozen p List.mem_cons_self)]

theorem revise_cons (f : Pulse α → Option (Pulse α)) {p : Pulse α} (older : Pulses α)
    (phase : p.phase ≠ .frozen) : revise f (p :: older) = (f p).toList ++ revise f older := by
  rw [revise, if_neg phase]

private theorem dropExpired_sublist (w : Window α) (ps : Pulses α) : (ps.dropExpired w).Sublist ps := by
  rw [dropExpired]
  split
  · exact List.nil_sublist ps
  · exact List.filter_sublist

end Pulses

theorem Pulse.pulse_of_locate? {samples : List (Sample α)} {p : Pulse α} {located : LocatedPulse α}
    (found : p.locate? samples = some located) : located.pulse = p := by
  rw [Pulse.locate?] at found
  obtain ⟨i, _, found⟩ := Option.bind_eq_some_iff.mp found
  obtain ⟨j, _, equal⟩ := Option.bind_eq_some_iff.mp found
  rw [← Option.some.inj equal]

namespace Meter
variable [Scalar α]

@[simp]
theorem fitPulse_phase (m : Meter α) (w : Window α) (p : Pulse α) : (m.fitPulse w p).phase = p.phase :=
  rfl

/-- The pulses whose first sample is still there after `w` has lost `dropped` samples. -/
def keptPulses (m : Meter α) (w : Window α) (dropped : Nat) : Pulses α :=
  if dropped = 0 then m.pulses else m.pulses.dropExpired w

/-- The pulse that the newest rate begins when no other goes on. -/
def begun (m : Meter α) (w : Window α) (a b : Sample α) : Pulses α :=
  let rate := Window.rateBetween a b
  if Scalar.lt m.settings.threshold rate then [m.fitPulse w (.begin a.time b.time rate)] else []

/-- A pulse that goes on, up to the newest sample if the newest rate is above the threshold. -/
def grown (m : Meter α) (w : Window α) (a b : Sample α) (p : Pulse α) : Pulse α :=
  let rate := Window.rateBetween a b
  m.fitPulse w (if Scalar.lt m.settings.threshold rate then { p with stop := b.time, rate } else p)

def retired (m : Meter α) (w : Window α) (p : Pulse α) : Pulses α :=
  if p.length < m.settings.minimum then [] else [m.fitPulse w { p with phase := .frozen }]

/-- What the sample `b`, which came after `a`, does to settled pulses. -/
inductive Follows (m : Meter α) (w : Window α) (a b : Sample α) : Pulses α → Pulses α → Prop
  | rest (kept : Pulses α) (frozen : ∀ p ∈ kept, p.phase = .frozen) :
      Follows m w a b kept (m.begun w a b ++ kept)
  | goOn (p : Pulse α) (older : Pulses α) (growing : p.phase = .growing)
      (frozen : ∀ q ∈ older, q.phase = .frozen)
      (near : (w.countAfter? p.stop).getD 0 ≤ m.settings.reach) :
      Follows m w a b (p :: older) (m.grown w a b p :: older)
  | finish (p : Pulse α) (older : Pulses α) (growing : p.phase = .growing)
      (frozen : ∀ q ∈ older, q.phase = .frozen)
      (far : m.settings.reach < (w.countAfter? p.stop).getD 0) :
      Follows m w a b (p :: older) (m.begun w a b ++ (m.retired w p ++ older))

private theorem begun_settled (m : Meter α) (w : Window α) (a b : Sample α) {older : Pulses α}
    (frozen : ∀ q ∈ older, q.phase = .frozen) : Pulses.Settled (m.begun w a b ++ older) := by
  rw [begun]
  split
  · exact Pulses.settled_cons (by simp [Pulse.begin]) frozen
  · exact Pulses.settled_of_frozen frozen

theorem retired_frozen (m : Meter α) (w : Window α) (p : Pulse α) {older : Pulses α}
    (frozen : ∀ q ∈ older, q.phase = .frozen) :
    ∀ q ∈ m.retired w p ++ older, q.phase = .frozen := by
  intro q member
  rcases List.mem_append.mp member with ended | behind
  · rw [retired] at ended
    split at ended
    · exact absurd ended List.not_mem_nil
    · rw [List.mem_singleton.mp ended]
      rfl
  · exact frozen q behind

theorem grown_phase (m : Meter α) (w : Window α) (a b : Sample α) (p : Pulse α) :
    (m.grown w a b p).phase = p.phase := by
  rw [grown]
  split <;> rfl

theorem Follows.settled {m : Meter α} {w : Window α} {a b : Sample α} {kept next : Pulses α}
    (follows : m.Follows w a b kept next) : next.Settled := by
  cases follows with
  | rest _ frozen => exact m.begun_settled w a b frozen
  | goOn p older growing frozen near =>
    exact Pulses.settled_cons (by simp [grown_phase, growing]) frozen
  | finish p older growing frozen far =>
    exact m.begun_settled w a b (m.retired_frozen w p frozen)

theorem Follows.unique {m : Meter α} {w : Window α} {a b : Sample α} {kept next next' : Pulses α}
    (follows : m.Follows w a b kept next) (follows' : m.Follows w a b kept next') : next = next' := by
  cases follows with
  | rest _ frozen =>
    cases follows' with
    | rest => rfl
    | goOn p older growing => simp [growing] at frozen
    | finish p older growing => simp [growing] at frozen
  | goOn p older growing _ near =>
    cases follows' with
    | rest _ frozen => simp [growing] at frozen
    | goOn => rfl
    | finish _ _ _ _ far => exact absurd near (Nat.not_le_of_lt far)
  | finish p older growing _ far =>
    cases follows' with
    | rest _ frozen => simp [growing] at frozen
    | goOn _ _ _ _ near => exact absurd near (Nat.not_le_of_lt far)
    | finish => rfl

private theorem settle_fitted (m : Meter α) (w : Window α) (p : Pulse α) :
    (Pulses.settleOne m.settings.minimum (m.fitPulse w { p with phase := .ending })).toList =
      m.retired w p := by
  rw [Pulses.settleOne, if_neg (by simp), retired]
  change Option.toList (if p.length < m.settings.minimum then none else _) = _
  split <;> rfl

omit [Scalar α] in
private theorem settle_growing (minimum : Duration) {p : Pulse α} (growing : p.phase = .growing) :
    Pulses.settleOne minimum p = some p := by
  rw [Pulses.settleOne, if_pos (by simp [growing])]

private theorem revised_growing (m : Meter α) (w : Window α) {p : Pulse α} {older : Pulses α}
    (growing : p.phase = .growing) (frozen : ∀ q ∈ older, q.phase = .frozen) :
    (Pulses.revise (some ∘ m.fitPulse w) (p :: older)).settle m.settings.minimum =
      m.fitPulse w p :: older := by
  rw [Pulses.revise_cons _ _ (by simp [growing]), Pulses.revise_of_frozen _ frozen, Pulses.settle]
  change Pulses.revise _ (m.fitPulse w p :: older) = _
  rw [Pulses.revise_cons _ _ (by simp [growing]), Pulses.revise_of_frozen _ frozen,
    settle_growing _ (show (m.fitPulse w p).phase = .growing from growing)]
  rfl

private theorem revised_frozen (m : Meter α) (w : Window α) {ps : Pulses α}
    (frozen : ∀ p ∈ ps, p.phase = .frozen) :
    (Pulses.revise (some ∘ m.fitPulse w) ps).settle m.settings.minimum = ps := by
  rw [Pulses.revise_of_frozen _ frozen, Pulses.settle, Pulses.revise_of_frozen _ frozen]

private theorem revised_ending (m : Meter α) (w : Window α) (p : Pulse α) {older : Pulses α}
    (frozen : ∀ q ∈ older, q.phase = .frozen) :
    (Pulses.revise (some ∘ m.fitPulse w) ({ p with phase := .ending } :: older)).settle
      m.settings.minimum = m.retired w p ++ older := by
  rw [Pulses.revise_cons _ _ (by simp), Pulses.revise_of_frozen _ frozen, Pulses.settle]
  change Pulses.revise _ (m.fitPulse w { p with phase := .ending } :: older) = _
  rw [Pulses.revise_cons _ _ (by simp), Pulses.revise_of_frozen _ frozen, settle_fitted]

private theorem revised_begun_ending (m : Meter α) (w : Window α) {q : Pulse α} (p : Pulse α)
    {older : Pulses α} (growing : q.phase = .growing)
    (frozen : ∀ r ∈ older, r.phase = .frozen) :
    (Pulses.revise (some ∘ m.fitPulse w) (q :: { p with phase := .ending } :: older)).settle
      m.settings.minimum = m.fitPulse w q :: (m.retired w p ++ older) := by
  rw [Pulses.revise_cons _ _ (by simp [growing]), Pulses.settle]
  change Pulses.revise _ (m.fitPulse w q :: Pulses.revise _ _) = _
  rw [Pulses.revise_cons _ _ (by simp [growing]),
    settle_growing _ (show (m.fitPulse w q).phase = .growing from growing)]
  exact congrArg (_ :: ·) (revised_ending m w p frozen)

private theorem follow_rest (m : Meter α) (w : Window α) (a b : Sample α) {kept : Pulses α}
    (last : w.lastTwo? = some (a, b)) (latest : w.latestRate? = some (Window.rateBetween a b))
    (frozen : ∀ p ∈ kept, p.phase = .frozen) :
    ((kept.advance m.settings w).revise (some ∘ m.fitPulse w)).settle m.settings.minimum =
      m.begun w a b ++ kept := by
  have stays : kept.advance m.settings w =
      if Scalar.lt m.settings.threshold (Window.rateBetween a b) then
        .begin a.time b.time (Window.rateBetween a b) :: kept else kept := by
    rw [Pulses.advance, last, latest]
    cases kept with
    | nil => rfl
    | cons p older =>
      have phase := frozen p List.mem_cons_self
      simp only [phase, ne_eq, reduceCtorEq, not_false_eq_true, if_true]
  rw [stays, begun]
  split
  · exact revised_growing m w rfl frozen
  · exact revised_frozen m w frozen

private theorem follow_near (m : Meter α) (w : Window α) (a b : Sample α) {p : Pulse α}
    {older : Pulses α} (last : w.lastTwo? = some (a, b))
    (latest : w.latestRate? = some (Window.rateBetween a b)) (growing : p.phase = .growing)
    (frozen : ∀ q ∈ older, q.phase = .frozen)
    (near : (w.countAfter? p.stop).getD 0 ≤ m.settings.reach) :
    ((Pulses.advance m.settings w (p :: older)).revise (some ∘ m.fitPulse w)).settle
      m.settings.minimum = m.grown w a b p :: older := by
  rw [Pulses.advance, last, latest, grown]
  simp only [growing, ne_eq, not_true_eq_false, if_false, near, if_true]
  split
  · exact revised_growing m w
      (p := { p with stop := b.time, rate := Window.rateBetween a b, phase := .growing }) rfl frozen
  · exact revised_growing m w growing frozen

private theorem follow_far (m : Meter α) (w : Window α) (a b : Sample α) {p : Pulse α}
    {older : Pulses α} (last : w.lastTwo? = some (a, b))
    (latest : w.latestRate? = some (Window.rateBetween a b)) (growing : p.phase = .growing)
    (frozen : ∀ q ∈ older, q.phase = .frozen)
    (far : m.settings.reach < (w.countAfter? p.stop).getD 0) :
    ((Pulses.advance m.settings w (p :: older)).revise (some ∘ m.fitPulse w)).settle
      m.settings.minimum = m.begun w a b ++ (m.retired w p ++ older) := by
  rw [Pulses.advance, last, latest, begun]
  simp only [growing, ne_eq, not_true_eq_false, if_false, Nat.not_le_of_lt far]
  split
  · exact revised_begun_ending m w p rfl frozen
  · exact revised_ending m w p frozen

theorem keptPulses_sublist (m : Meter α) (w : Window α) (dropped : Nat) :
    (m.keptPulses w dropped).Sublist m.pulses := by
  rw [keptPulses]
  split
  · exact List.Sublist.refl _
  · exact Pulses.dropExpired_sublist _ _

/-- A sample does one of three things to the pulses that are kept, if another one came before it. -/
theorem follow_cases (m : Meter α) (w : Window α) (dropped : Nat) (a b : Sample α)
    (settled : m.pulses.Settled) (last : w.lastTwo? = some (a, b))
    (latest : w.latestRate? = some (Window.rateBetween a b)) :
    m.Follows w a b (m.keptPulses w dropped) (m.follow w dropped) := by
  change Follows m w a b _
    ((((m.keptPulses w dropped).advance m.settings w).revise (some ∘ m.fitPulse w)).settle _)
  rcases (settled.sublist (m.keptPulses_sublist w dropped)).cases with
    frozen | ⟨p, older, equal, growing, frozen⟩
  · rw [follow_rest m w a b last latest frozen]
    exact .rest _ frozen
  · rw [equal]
    rcases Nat.lt_or_ge m.settings.reach ((w.countAfter? p.stop).getD 0) with far | near
    · rw [follow_far m w a b last latest growing frozen far]
      exact .finish p older growing frozen far
    · rw [follow_near m w a b last latest growing frozen near]
      exact .goOn p older growing frozen near

/-- A sample that is alone does nothing to pulses at rest. -/
theorem follow_of_no_rate (m : Meter α) (w : Window α) (dropped : Nat)
    (latest : w.latestRate? = none) (frozen : ∀ p ∈ m.keptPulses w dropped, p.phase = .frozen) :
    m.follow w dropped = m.keptPulses w dropped := by
  change (((m.keptPulses w dropped).advance m.settings w).revise (some ∘ m.fitPulse w)).settle _ = _
  rw [Pulses.advance, latest]
  exact revised_frozen m w frozen

theorem located_tracked {m : Meter α} {located : LocatedPulse α}
    (shown : located ∈ m.snapshot.pulses) : located.pulse ∈ m.pulses := by
  obtain ⟨p, member, found⟩ := List.mem_filterMap.mp shown
  rw [Pulse.pulse_of_locate? found]
  exact (List.mem_filter.mp (List.mem_reverse.mp member)).1

end Meter
end Calorimetry
