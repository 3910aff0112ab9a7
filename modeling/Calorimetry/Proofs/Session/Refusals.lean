import Calorimetry.Proofs.Session.Omission

/-! Refused samples leave no trace but in their count. A sample is judged by the newest one in the window,
and that one never leaves it, so it is judged by all that were accepted before. What is refused is then as
good as never sent: left out of a stream, it changes neither the measurement nor what subscribers get. -/

namespace Calorimetry
variable {α : Type}

namespace Action

def sample? : Action α → Option (Sample α)
  | .ingest x => some x
  | _ => none

private theorem sample?_of_harmless [Scalar α] {a : Action α} (harmless : a.Harmless) : a.sample? = none := by
  cases harmless <;> rfl

/-- The action takes samples in, or does nothing to the measurement. -/
inductive Streams [Scalar α] : Action α → Prop
  | ingest (x : Sample α) : Streams (.ingest x)
  | process (xs : List (Sample α)) : Streams (.process xs)
  | harmless (a : Action α) (harmless : a.Harmless) : Streams a

private theorem Streams.parts [Scalar α] {a : Action α} (streams : a.Streams) :
    ∀ b ∈ a.parts, (∃ x, b = .ingest x) ∨ b.Harmless := by
  cases streams with
  | ingest x => exact fun b member => .inl ⟨x, List.mem_singleton.mp member⟩
  | process xs =>
    intro b member
    rcases List.mem_append.mp member with taken | last
    · obtain ⟨x, _, rfl⟩ := List.mem_map.mp taken
      exact .inl ⟨x, rfl⟩
    · rw [List.mem_singleton.mp last]
      exact .inr .shutdown
  | harmless a harmless =>
    intro b member
    have same : b = a := by
      cases harmless <;> exact List.mem_singleton.mp member
    rw [same]
    exact .inr harmless

end Action

variable [Scalar α]

/-! ## Accepted samples -/

/-- The samples taken once `x` has been judged. -/
def Sample.judge (taken : List (Sample α)) (x : Sample α) : List (Sample α) :=
  if canFollow taken x then taken ++ [x] else taken

private theorem Sample.accepted_increasing (stream : List (Sample α)) :
    (accepted stream).Pairwise fun a b => a.time < b.time := by
  induction stream using List.reverseRecOn with
  | nil => exact .nil
  | append_singleton earlier x ih =>
    rw [accepted_concat]
    split
    · next follows =>
      have later := ((canFollow_iff _ x).mp follows).2
      exact Window.increasing_concat ih (Window.lt_of_last ih x.time later)
    · exact ih

/-- A sample can follow if it is later than every accepted one, not only than the last. -/
private theorem Sample.canFollow_accepted_iff (stream : List (Sample α)) (x : Sample α) :
    canFollow (accepted stream) x = true ↔
      Scalar.isFinite x.reading = true ∧ ∀ a ∈ accepted stream, a.time < x.time := by
  rw [canFollow_iff]
  refine and_congr_right fun _ => ⟨Window.lt_of_last (accepted_increasing stream) x.time, ?_⟩
  intro later last newest
  exact later last (List.mem_of_getLast? newest)

namespace Session

/-- The operations without the samples that are refused where those `taken` came before. -/
def heeded (taken : List (Sample α)) : List (Operation α) → List (Operation α)
  | [] => []
  | .ingest x :: later =>
    if Sample.canFollow taken x then .ingest x :: heeded (taken ++ [x]) later else heeded taken later
  | op :: later => op :: heeded taken later

private theorem heeded_of_harmless (taken : List (Sample α)) {op : Operation α} (harmless : op.Harmless)
    (later : List (Operation α)) : heeded taken (op :: later) = op :: heeded taken later := by
  cases harmless <;> rfl

private theorem heeded_sublist (ops : List (Operation α)) (taken : List (Sample α)) :
    (heeded taken ops).Sublist ops := by
  induction ops generalizing taken with
  | nil => exact .slnil
  | cons op later ih =>
    cases op with
    | ingest x =>
      rw [heeded]
      split
      · exact (ih _).cons_cons _
      · exact (ih _).cons _
    | _ => exact (ih taken).cons_cons _

private theorem heeded_others (ops : List (Operation α)) (taken : List (Sample α)) :
    (heeded taken ops).filter (·.sample?.isNone) = ops.filter (·.sample?.isNone) := by
  induction ops generalizing taken with
  | nil => rfl
  | cons op later ih =>
    cases op with
    | ingest x =>
      rw [heeded, List.filter_cons_of_neg (by simp [Action.sample?])]
      split
      · rw [List.filter_cons_of_neg (by simp [Action.sample?]), ih]
      · exact ih taken
    | _ => exact congrArg (_ :: ·) (ih taken)

omit [Scalar α] in
private theorem samples_ingest (x : Sample α) (later : List (Operation α)) :
    (.ingest x :: later).filterMap Action.sample? = x :: later.filterMap Action.sample? := rfl

private theorem heeded_samples (ops : List (Operation α)) (taken : List (Sample α)) :
    taken ++ (heeded taken ops).filterMap Action.sample? =
      (ops.filterMap Action.sample?).foldl Sample.judge taken := by
  induction ops generalizing taken with
  | nil => exact List.append_nil taken
  | cons op later ih =>
    cases op with
    | ingest x =>
      rw [heeded, samples_ingest, List.foldl_cons, Sample.judge, ← ih]
      split
      · rw [samples_ingest, List.append_assoc]
        rfl
      · rfl
    | _ => exact ih taken

/-! ## Streams with and without refused samples -/

/-- The session has taken in the samples `taken`, and none of its callbacks is going to do anything to the
measurement. -/
structure Heeds (c : MeterSettings α) (taken : List (Sample α)) (s : Session α) : Prop where
  passive : s.Passive
  consistent : s.meter.Consistent c
  took : s.meter.Took taken

variable {c : MeterSettings α} {taken : List (Sample α)} {s : Session α}

private theorem Heeds.harmless (heeds : s.Heeds c taken) {op : Operation α} (harmless : op.Harmless) :
    (s.perform op).Heeds c taken ∧ (s.perform op).anomalies = s.anomalies := by
  have rests := act_rests ingest s op harmless heeds.passive
  refine ⟨⟨rests.passive, ?_, ?_⟩, rests.anomalies⟩
  · exact rests.meter.symm ▸ heeds.consistent
  · exact rests.meter.symm ▸ heeds.took

private theorem Heeds.refused (heeds : s.Heeds c taken) {x : Sample α}
    (refused : Sample.canFollow taken x = false) : s.ingest x = s.tallied 1 := by
  have judged := s.meter.record_ok_iff taken x heeds.took
  rw [ingest, ingestWithin, take]
  cases recorded : s.meter.record x with
  | error e => rfl
  | ok next =>
    rw [refused] at judged
    exact absurd (judged.mp ⟨next, recorded⟩) Bool.false_ne_true

private theorem Heeds.accepted (heeds : s.Heeds c taken) (positive : 0 < c.span) {x : Sample α}
    (follows : Sample.canFollow taken x = true) :
    (s.ingest x).Heeds c (taken ++ [x]) ∧ (s.ingest x).anomalies = s.anomalies := by
  obtain ⟨next, recorded⟩ := (s.meter.record_ok_iff taken x heeds.took).mpr follows
  have rests := ingest_rests s x heeds.passive
  rw [take, recorded] at rests
  obtain ⟨n, entered, _⟩ := Meter.record_entered heeds.consistent positive recorded
  refine ⟨⟨rests.passive, ?_, ?_⟩, rests.anomalies⟩
  · exact rests.meter.symm ▸ Meter.record_consistent heeds.consistent positive recorded
  · exact rests.meter.symm ▸ heeds.took.entered entered

/-- What `kept`, which is what is left of `ops`, does to the session instead of them. -/
structure Sifted (c : MeterSettings α) (taken : List (Sample α)) (s : Session α)
    (ops kept : List (Operation α)) : Prop where
  same : s.operate ops = (s.operate kept).tallied
    ((ops.filterMap Action.sample?).length - (kept.filterMap Action.sample?).length)
  uncounted : (s.operate kept).anomalies = s.anomalies
  heeds : (s.operate kept).Heeds c (taken ++ kept.filterMap Action.sample?)

private theorem Heeds.sifted (positive : 0 < c.span) (ops : List (Operation α)) (heeds : s.Heeds c taken)
    (streams : ∀ op ∈ ops, (∃ x, op = .ingest x) ∨ op.Harmless) :
    Sifted c taken s ops (heeded taken ops) := by
  -- A refused sample is counted before the rest, and the count makes no difference to the rest.
  induction ops generalizing s taken with
  | nil => exact ⟨rfl, rfl, by rwa [heeded, List.filterMap_nil, List.append_nil]⟩
  | cons op later ih =>
    obtain ⟨first, others⟩ := List.forall_mem_cons.mp streams
    rcases first with ⟨x, rfl⟩ | harmless
    · cases follows : Sample.canFollow taken x with
      | true =>
        obtain ⟨still, uncounted⟩ := heeds.accepted positive follows
        have rest := ih still others
        rw [heeded, if_pos follows]
        constructor
        · rw [samples_ingest, samples_ingest, List.length_cons, List.length_cons, Nat.add_sub_add_right]
          exact rest.same
        · exact rest.uncounted.trans uncounted
        · rw [samples_ingest, List.append_cons]
          exact rest.heeds
      | false =>
        have rest := ih heeds others
        have fewer := ((heeded_sublist later taken).filterMap Action.sample?).length_le
        rw [heeded, if_neg (by simp [follows])]
        refine ⟨?_, rest.uncounted, rest.heeds⟩
        calc s.operate (.ingest x :: later)
            = (s.tallied 1).operate later := by rw [← heeds.refused follows]; rfl
          _ = ((s.operate (heeded taken later)).tallied _).tallied 1 := by
            rw [operate_tallied, rest.same]
          _ = (s.operate (heeded taken later)).tallied _ := by
            rw [tallied_tallied, samples_ingest, List.length_cons, Nat.sub_add_comm fewer]
    · obtain ⟨still, uncounted⟩ := heeds.harmless harmless
      have rest := ih still others
      have none := Action.sample?_of_harmless harmless
      rw [heeded_of_harmless taken harmless]
      constructor
      · rw [List.filterMap_cons_none none, List.filterMap_cons_none none]
        exact rest.same
      · exact rest.uncounted.trans uncounted
      · rw [List.filterMap_cons_none none]
        exact rest.heeds

/-- As long as only samples reach the measurement of a new session, those that are refused leave no trace but
in their count. A sample is accepted if it has a finite reading and is later than all samples accepted
before, whatever the settings are. Whoever is subscribed, and whatever is done to the session afterwards,
with the refused samples left out everything is as it is with them, and none of the others is refused. -/
theorem refused_samples_leave_no_trace {points : List (Point α)} {m : Meter α}
    (built : Meter.ofSettings c points = .ok m) (s : Session α) (fresh : s.meter = m)
    (passive : s.Passive) (ops later : List (Operation α)) (streams : ∀ op ∈ ops, op.Streams) :
    let single := ops.flatMap Action.parts
    let stream := single.filterMap Action.sample?
    let kept := heeded [] single
    let refused := stream.length - (Sample.accepted stream).length
    (kept.filterMap Action.sample? = Sample.accepted stream ∧ kept.Sublist single ∧
        kept.filter (·.sample?.isNone) = single.filter (·.sample?.isNone)) ∧
      (∀ earlier x rest, single = earlier ++ .ingest x :: rest →
        ((∃ next, (s.operate earlier).meter.record x = .ok next) ↔ Scalar.isFinite x.reading = true ∧
          ∀ a ∈ Sample.accepted (earlier.filterMap Action.sample?), a.time < x.time)) ∧
      (s.operate ops).anomalies = s.anomalies + refused ∧ (s.operate kept).anomalies = s.anomalies ∧
      s.operate (ops ++ later) = (s.operate (kept ++ later)).tallied refused := by
  intro single stream kept refused
  obtain ⟨valid, t, _, rfl⟩ := Meter.ofSettings_eq_ok built
  have positive := MeterSettings.span_pos valid
  have heeds : s.Heeds c [] :=
    ⟨passive, fresh ▸ Meter.start_consistent c t, fresh ▸ Meter.start_took c t⟩
  have plain : ∀ op ∈ single, (∃ x, op = .ingest x) ∨ op.Harmless := by
    intro op member
    obtain ⟨whole, present, part⟩ := List.mem_flatMap.mp member
    exact (streams whole present).parts op part
  have accepted (taken : List (Operation α)) :
      (heeded [] taken).filterMap Action.sample? =
        Sample.accepted (taken.filterMap Action.sample?) := heeded_samples taken []
  have sifted := heeds.sifted positive single plain
  have same : s.operate ops = (s.operate kept).tallied refused := by
    rw [← operate_parts, sifted.same, accepted]
  refine ⟨⟨accepted single, heeded_sublist single [], heeded_others single []⟩, ?_, ?_,
    sifted.uncounted, ?_⟩
  · intro earlier x rest split
    have before := heeds.sifted positive earlier fun op member =>
      plain op (split ▸ List.mem_append_left _ member)
    have took := before.heeds.took
    rw [List.nil_append, accepted] at took
    rw [← Sample.canFollow_accepted_iff, before.same]
    exact Meter.record_ok_iff _ _ x took
  · rw [same]
    exact congrArg (· + refused) sifted.uncounted
  · rw [operate_append, operate_append, same, operate_tallied]

namespace Sifting

def session : Session Float := { meter := Meter.start TwoHeatings.settings Table.empty }

/-- The sample at half a minute leaves itself alone in the window, and the one stamped before it is
refused. -/
def ops : List (Operation Float) :=
  [.subscribeWith [[.subscribe]], .ingest (TwoHeatings.second 0 (0.0 / 0.0)),
    .ingest (TwoHeatings.second 0 0), .ingest (TwoHeatings.second 1 1),
    .ingest (TwoHeatings.second 1 5), .subscribeChannel 2, .ingest (TwoHeatings.second 30 2),
    .process [TwoHeatings.second 29 3, TwoHeatings.second 31 3]]

def stream : List (Sample Float) := (ops.flatMap Action.parts).filterMap Action.sample?

def kept : List (Operation Float) := heeded [] (ops.flatMap Action.parts)

def later : List (Operation Float) := [.reset, .receive 2 1, .clear, .ingest (TwoHeatings.second 2 7)]

private theorem streams : ∀ op ∈ ops, op.Streams := by
  simp only [ops, List.forall_mem_cons]
  refine ⟨.harmless _ ?_, .ingest _, .ingest _, .ingest _, .ingest _, .harmless _ (.subscribeChannel 2),
    .ingest _, .process _, List.forall_mem_nil _⟩
  refine .subscribeWith _ fun actions planned a acts => ?_
  rw [List.mem_singleton.mp planned] at acts
  rw [List.mem_singleton.mp acts]
  exact .subscribeWith [] (List.forall_mem_nil _)

end Sifting

theorem refused_samples_leave_no_trace_sifting :
    Meter.ofSettings TwoHeatings.settings [] = .ok Sifting.session.meter ∧ Sifting.session.Passive ∧
      (∀ op ∈ Sifting.ops, op.Streams) ∧
      (Sample.accepted Sifting.stream).map Sample.time = [0, 1, 30, 31].map Duration.ofSeconds ∧
      (Sifting.session.operate Sifting.ops).anomalies = 3 ∧
      (Sifting.session.operate Sifting.kept).anomalies = 0 ∧
      (Sifting.session.operate (Sifting.kept ++ Sifting.later)).calls.length = 9 ∧
      Sifting.session.operate (Sifting.ops ++ Sifting.later) =
        (Sifting.session.operate (Sifting.kept ++ Sifting.later)).tallied 3 := by
  have built : Meter.ofSettings TwoHeatings.settings [] = .ok Sifting.session.meter := rfl
  have passive : Sifting.session.Passive := fun _ member => absurd member List.not_mem_nil
  obtain ⟨_, _, counted, uncounted, same⟩ := refused_samples_leave_no_trace built Sifting.session rfl
    passive Sifting.ops Sifting.later Sifting.streams
  have refused : Sifting.stream.length - (Sample.accepted Sifting.stream).length = 3 := by decide
  refine ⟨built, passive, Sifting.streams, by decide, ?_, uncounted, by decide, ?_⟩
  · exact counted.trans (congrArg (Sifting.session.anomalies + ·) refused)
  · exact same.trans (congrArg (fun k => tallied k _) refused)

end Session
end Calorimetry
