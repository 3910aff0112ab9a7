import Calorimetry.Proofs.Files.Interruption
import Calorimetry.Proofs.Files.Path
import Calorimetry.TableFile

/-! Saving a table when a step fails or the run is cut off. As long as the draft is a file of its own, the place
of the table has its old content until the last step is done, and the new one from then on. A path with the
extension of drafts is its own draft, and there the table is written in place. -/

namespace Calorimetry
open Files FileAccess

namespace TableFile
variable {f g : Files} {path : FilePath} {points : List (Point Float)}

def drafting (path : FilePath) (points : List (Point Float)) : List FileStep := [
  .create (draft path), .write (draft path) (content points), .sync (draft path)]

theorem saving_eq (path : FilePath) (points : List (Point Float)) :
    saving path points = drafting path points ++ [.rename (draft path) path] := rfl

private theorem drafting_spares (apart : (draft path).location ≠ path.location)
    (points : List (Point Float)) : ∀ step ∈ drafting path points, step.Spares path.location := by
  simp [drafting, FileStep.Spares, apart]

theorem drafted (leaves : f.Leaves (drafting path points) (.ok ()) g) :
    g.content? (draft path).location = some (content points) := by
  obtain ⟨emptied, created, leaves⟩ := leaves.step_ok
  obtain ⟨filled, written, leaves⟩ := leaves.step_ok
  obtain ⟨synced, same, leaves⟩ := leaves.step_ok
  cases leaves
  cases same
  obtain ⟨old, there, rfl⟩ := perform_write written
  rw [perform_create created, content?_put_self, Option.some.injEq] at there
  rw [content?_put_self, ← there, List.nil_append]

/-- A save is done to its end if there can be a file at the place of the draft and one be moved to that of the
table. -/
theorem saving_done {l l' : Location} (lands : f.Lands (draft path) l) (landed : f.landing path = .ok l')
    (points : List (Point Float)) :
    ∃ g, (stored.performAll (saving path points)).run f = (.ok (), g) := by
  have created : f.perform (.create (draft path)) = .ok (f.put l []) := lands.place []
  have lands' := lands.of_directories (directories_put f l [])
  have written : (f.put l []).perform (.write (draft path) (content points)) =
      .ok ((f.put l []).put l (content points)) := by
    rw [Files.perform, lands'.read (content?_put_self f l [])]
    exact lands'.place (content points)
  have drafted := (lands'.of_directories (directories_put _ l _)).read
    (content?_put_self (f.put l []) l (content points))
  have landed' : ((f.put l []).put l (content points)).landing path = .ok l' :=
    landing_of_directories landed rfl
  obtain ⟨g, renamed⟩ : ∃ g,
      ((f.put l []).put l (content points)).perform (.rename (draft path) path) = .ok g := by
    rw [Files.perform, drafted, landed']
    exact ⟨_, rfl⟩
  have synced (k : Files) : k.perform (.sync (draft path)) = .ok k := rfl
  refine ⟨g, ?_⟩
  rw [saving_eq, drafting]
  simp only [List.cons_append, List.nil_append, performAll_cons, stored_perform, created, written, synced,
    renamed]
  rfl

/-- A finished run leaves the table, and any other one what was there before. -/
private theorem content?_of_saving {r : Performed} (apart : (draft path).location ≠ path.location)
    (leaves : f.Leaves (saving path points) r g) :
    g.content? path.location =
      if r.isOk then some (content points) else f.content? path.location := by
  rw [saving_eq] at leaves
  -- It has ended while the draft was prepared, or it has come to the last step, which is done or not begun.
  rcases leaves.append with ⟨e, rfl, part⟩ | ⟨k, drafts, last⟩
  · exact part.content?_of_spares (drafting_spares apart points)
  · have kept := drafts.content?_of_spares (drafting_spares apart points)
    cases last with
    | step _ done rest =>
      cases rest
      exact content?_moved done (drafted drafts)
    | stop _ _ fault torn =>
      cases torn
      exact kept

private theorem content?_of_part {r : Performed} {n : Nat} (early : n < 4)
    (apart : (draft path).location ≠ path.location)
    (leaves : f.Leaves ((saving path points).take n) r g) :
    g.content? path.location = f.content? path.location := by
  have part : (saving path points).take n = (drafting path points).take n := by
    rw [saving_eq, List.take_append_of_le_length]
    exact Nat.le_of_lt_succ early
  rw [part] at leaves
  exact leaves.content?_of_spares fun step member =>
    drafting_spares apart points step (List.mem_of_mem_take member)

/-- A save in a world where any step may fail, cut off after `n` steps. At the place of the table there is the
whole new content if all four steps are done, and otherwise what was there before. -/
theorem save_is_atomic {σ : Type} {access : FileAccess (StateM σ)} {files : σ → Files}
    (faithful : access.Faithful files) (apart : (draft path).location ≠ path.location)
    (points : List (Point Float)) (n : Nat) (s : σ) :
    let saved := (access.performAll ((saving path points).take n)).run s
    (files saved.2).content? path.location =
      if 4 ≤ n ∧ saved.1 = .ok () then some (content points) else (files s).content? path.location := by
  have leaves := faithful.performAll_leaves ((saving path points).take n) s
  generalize (access.performAll ((saving path points).take n)).run s = saved at leaves ⊢
  obtain ⟨answer, s'⟩ := saved
  dsimp only at leaves ⊢
  by_cases whole : 4 ≤ n
  · have all : (saving path points).take n = saving path points := List.take_of_length_le whole
    rw [all] at leaves
    rw [content?_of_saving apart leaves]
    cases answer <;> simp [whole, Except.isOk, Except.toBool]
  · rw [if_neg (fun both => whole both.1)]
    exact content?_of_part (Nat.lt_of_not_le whole) apart leaves

/-- A path is its own draft if its extension is that of drafts, and otherwise not, for any name that has one. -/
private theorem draft_location_iff {lead front ext : List Char} (isLead : FilePath.IsLead lead)
    (some : front ≠ []) (other : front ≠ ['.']) (whole : '/' ∉ front) (short : '/' ∉ ext) (last : '.' ∉ ext) :
    (draft ⟨lead ++ (front ++ '.' :: ext)⟩).location =
      (⟨lead ++ (front ++ '.' :: ext)⟩ : FilePath).location ↔ "new".toList = ext :=
  FilePath.location_withExtension_iff isLead some other whole short last (by decide)

/-- A table where all steps can be done but the disk is full after five bytes of the draft. -/
theorem save_is_atomic_cramped :
    let path := FilePath.ofText "data/t.csv"
    let f := ({} : Files).store path.location [0x61, 0x0A]
    (cramped 5).Faithful id ∧ (draft path).location ≠ path.location ∧
      (((cramped 5).performAll (saving path [])).run f).2.content? path.location =
        some [0x61, 0x0A] := by
  intro path f
  have named : path = ⟨"data/".toList ++ ("t".toList ++ '.' :: "csv".toList)⟩ := by decide
  have lead : FilePath.IsLead "data/".toList := .inr ⟨"data".toList, by decide⟩
  have apart : (draft path).location ≠ path.location := by
    rw [named, ne_eq, draft_location_iff lead (by decide) (by decide) (by decide) (by decide) (by decide)]
    decide
  exact ⟨cramped_faithful 5, apart, save_is_atomic (cramped_faithful 5) apart [] 4 f⟩

/-- A path that leads to its own draft is empty as soon as the draft is there. -/
private theorem emptied_of_own_draft (own : (draft path).location = path.location)
    (created : f.perform (.create (draft path)) = .ok g) (points : List (Point Float)) :
    ((stored.performAll ((saving path points).take 1)).run f).2.content? path.location = some [] := by
  have first : (saving path points).take 1 = [.create (draft path)] := rfl
  rw [first, performAll_cons, stored_perform, created, perform_create created, own]
  exact content?_put_self f path.location []

/-- A table named `t.new` is lost when its save is cut off after the first step, and in part when the disk is
full. -/
theorem own_draft_not_atomic :
    let path := FilePath.ofText "t.new"
    let f := ({} : Files).put path.location [0x61, 0x0A]
    f.content? path.location = some [0x61, 0x0A] ∧
      ((stored.performAll ((saving path []).take 1)).run f).2.content? path.location = some [] ∧
      (∃ fault, (((cramped 5).performAll (saving path [])).run f).1 =
        .error (.write path (content []), fault)) ∧
      (((cramped 5).performAll (saving path [])).run f).2.content? path.location =
        some [0x73, 0x6C, 0x6F, 0x70, 0x65] ∧
      content [] ≠ [] ∧ content [] ≠ [0x73, 0x6C, 0x6F, 0x70, 0x65] := by
  intro path f
  have named : path = ⟨[] ++ ("t".toList ++ '.' :: "new".toList)⟩ := by decide
  have own : (draft path).location = path.location := by
    rw [named, draft_location_iff (.inl rfl) (by decide) (by decide) (by decide) (by decide) (by decide)]
  have lands : f.Lands (draft path) ["t.new".toList] := ⟨rfl, rfl, rfl⟩
  exact ⟨content?_put_self _ path.location _, emptied_of_own_draft own (lands.place []) [], ⟨_, rfl⟩,
    by decide, by decide, by decide⟩

end TableFile
end Calorimetry
