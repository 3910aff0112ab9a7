import Calorimetry.Proofs.Files

/-! Steps that fail, and runs of steps that are cut off. A step may fail although it could be done, and a write may
fail after its first bytes. Whatever fails, a location that no step is about keeps its content. -/

namespace Calorimetry

/-- What a step leaves that is not done to its end. -/
inductive Files.Torn (f : Files) : FileStep → Files → Prop
  | untouched (step : FileStep) : Torn f step f
  | partly {path : FilePath} {bytes part : List UInt8} {g : Files} (begun : part <+: bytes)
      (written : f.perform (.write path part) = .ok g) : Torn f (.write path bytes) g

/-- Access that does what it says it has done, and of what it says has failed no more than a part. The state `σ`
may decide what fails and when. -/
structure FileAccess.Faithful {σ : Type} (access : FileAccess (StateM σ)) (files : σ → Files) : Prop where
  done : ∀ step s s', (access.perform step).run s = (.ok (), s') →
    (files s).perform step = .ok (files s')
  failed : ∀ step s fault s', (access.perform step).run s = (.error fault, s') →
    (files s).Torn step (files s')

/-- Answer to a run of steps: the step that failed, if one has. -/
abbrev Performed := Except (FileStep × FileFault) Unit

namespace Files

/-- What a run of steps leaves when it answers. -/
inductive Leaves : Files → List FileStep → Performed → Files → Prop
  | nothing (f) : Leaves f [] (.ok ()) f
  | step {f g k steps r} (step) (done : f.perform step = .ok g) (rest : Leaves g steps r k) :
      Leaves f (step :: steps) r k
  | stop {f g} (step steps fault) (torn : f.Torn step g) :
      Leaves f (step :: steps) (.error (step, fault)) g

end Files

namespace FileAccess

theorem stored_perform (step : FileStep) (f : Files) : (stored.perform step).run f =
    match f.perform step with
    | .ok g => (.ok (), g)
    | .error fault => (.error fault, f) := by
  unfold stored
  simp only [StateT.run, bind, StateT.bind, get, getThe, MonadStateOf.get, StateT.get, pure]
  cases f.perform step <;> rfl

theorem stored_faithful : stored.Faithful id where
  done step f g answered := by
    rw [stored_perform] at answered
    cases done : f.perform step with
    | error fault =>
      rw [done] at answered
      cases answered
    | ok after =>
      rw [done] at answered
      cases answered
      exact done
  failed step f fault g answered := by
    rw [stored_perform] at answered
    cases done : f.perform step with
    | ok after =>
      rw [done] at answered
      cases answered
    | error fault =>
      rw [done] at answered
      cases answered
      exact .untouched step

/-- Stored files on a disk with room for so many bytes of each write, which fails when they are there. -/
def cramped (room : Nat) : FileAccess (StateM Files) where
  read := stored.read
  perform
    | .write path bytes => do
      match ← stored.perform (.write path (bytes.take room)) with
      | .ok () => return .error (.other "No space left on device (os error 28)")
      | .error fault => return .error fault
    | step => stored.perform step

private theorem cramped_write (room : Nat) (path : FilePath) (bytes : List UInt8) (f : Files) :
    ((cramped room).perform (.write path bytes)).run f =
      match f.perform (.write path (bytes.take room)) with
      | .ok g => (.error (.other "No space left on device (os error 28)"), g)
      | .error fault => (.error fault, f) := by
  have begun := stored_perform (.write path (bytes.take room)) f
  dsimp only [cramped, StateT.run, bind, StateT.bind] at begun ⊢
  rw [begun]
  cases f.perform (.write path (bytes.take room)) <;> rfl

theorem cramped_faithful (room : Nat) : (cramped room).Faithful id where
  done step f g answered := by
    cases step with
    | write path bytes =>
      rw [cramped_write] at answered
      split at answered <;> cases answered
    | create path => exact stored_faithful.done _ f g answered
    | sync path => exact stored_faithful.done _ f g answered
    | rename source target => exact stored_faithful.done _ f g answered
  failed step f fault g answered := by
    cases step with
    | write path bytes =>
      rw [cramped_write] at answered
      split at answered
      · next written =>
        cases answered
        exact .partly (List.take_prefix room bytes) written
      · cases answered
        exact .untouched _
    | create path => exact stored_faithful.failed _ f fault g answered
    | sync path => exact stored_faithful.failed _ f fault g answered
    | rename source target => exact stored_faithful.failed _ f fault g answered

variable {σ : Type} {access : FileAccess (StateM σ)} {files : σ → Files}

theorem performAll_cons (step : FileStep) (rest : List FileStep) (s : σ) :
    (access.performAll (step :: rest)).run s =
      match (access.perform step).run s with
      | (.ok (), s') => (access.performAll rest).run s'
      | (.error fault, s') => (.error (step, fault), s') := by
  change (do
    match ← access.perform step with
    | .ok () => access.performAll rest
    | .error fault => pure (.error (step, fault)) : StateM σ Performed).run s = _
  simp only [StateT.run, bind, StateT.bind]
  obtain ⟨answer, s'⟩ := access.perform step s
  cases answer <;> rfl

theorem Faithful.performAll_leaves (faithful : access.Faithful files) (steps : List FileStep) (s : σ) :
    (files s).Leaves steps ((access.performAll steps).run s).1
      (files ((access.performAll steps).run s).2) := by
  induction steps generalizing s with
  | nil => exact .nothing (files s)
  | cons step rest ih =>
    rw [performAll_cons]
    cases answered : (access.perform step).run s with
    | mk answer s' =>
      cases answer with
      | ok done => exact .step step (faithful.done step s s' answered) (ih s')
      | error fault => exact .stop step rest fault (faithful.failed step s fault s' answered)

end FileAccess

/-! ## Locations that are spared -/

/-- The step is about other locations. -/
def FileStep.Spares (l : Location) : FileStep → Prop
  | create path => path.location ≠ l
  | write path _ => path.location ≠ l
  | sync _ => True
  | rename source target => source.location ≠ l ∧ target.location ≠ l

namespace Files
variable {f g : Files} {l : Location} {step : FileStep} {steps : List FileStep} {r : Performed}

private theorem content?_of_perform (spares : step.Spares l) (done : f.perform step = .ok g) :
    g.content? l = f.content? l := by
  cases step with
  | create path =>
    rw [perform_create done]
    exact content?_put f (Ne.symm spares) _
  | write path bytes =>
    obtain ⟨_, _, rfl⟩ := perform_write done
    exact content?_put f (Ne.symm spares) _
  | sync path =>
    cases done
    rfl
  | rename source target =>
    obtain ⟨bytes, _, _, rfl⟩ := perform_rename done
    obtain ⟨away, elsewhere⟩ := spares
    split
    · exact content?_put f (Ne.symm elsewhere) bytes
    · rw [content?_remove _ (Ne.symm away), content?_put f (Ne.symm elsewhere)]

private theorem content?_of_torn (spares : step.Spares l) (torn : f.Torn step g) :
    g.content? l = f.content? l := by
  cases torn with
  | untouched => rfl
  | @partly path bytes part _ begun written =>
    -- A part of the bytes goes where all of them would have gone.
    have part_spares : (FileStep.write path part).Spares l := spares
    exact content?_of_perform part_spares written

theorem Leaves.content?_of_spares (leaves : f.Leaves steps r g)
    (spares : ∀ step ∈ steps, step.Spares l) : g.content? l = f.content? l := by
  induction leaves with
  | nothing f => rfl
  | step step done rest ih =>
    rw [List.forall_mem_cons] at spares
    rw [ih spares.2, content?_of_perform spares.1 done]
  | stop step steps fault torn => exact content?_of_torn (spares step List.mem_cons_self) torn

/-- A run goes as far as its first part, or through it and on. -/
theorem Leaves.append {front back : List FileStep} (leaves : f.Leaves (front ++ back) r g) :
    (∃ e, r = .error e ∧ f.Leaves front (.error e) g) ∨
      ∃ k, f.Leaves front (.ok ()) k ∧ k.Leaves back r g := by
  induction front generalizing f with
  | nil => exact .inr ⟨f, .nothing f, leaves⟩
  | cons step front ih =>
    cases leaves with
    | step _ done rest =>
      rcases ih rest with ⟨e, failed, part⟩ | ⟨k, part, rest⟩
      · exact .inl ⟨e, failed, .step step done part⟩
      · exact .inr ⟨k, .step step done part, rest⟩
    | stop _ _ fault torn => exact .inl ⟨_, rfl, .stop step front fault torn⟩

theorem Leaves.step_ok (leaves : f.Leaves (step :: steps) (.ok ()) g) :
    ∃ k, f.perform step = .ok k ∧ k.Leaves steps (.ok ()) g := by
  cases leaves with
  | step _ done rest => exact ⟨_, done, rest⟩

end Files
end Calorimetry
