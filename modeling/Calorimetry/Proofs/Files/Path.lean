import Calorimetry.Files.Path

/-! Paths made of a directory and a name. The last name is what stands behind the last slash, and another
extension takes the place of what stands behind its last dot. -/

namespace Calorimetry
open Location (enter)

namespace FilePath

private theorem segments_of_name {cs : List Char} (whole : '/' ∉ cs) : segments cs = [cs] := by
  induction cs with
  | nil => rfl
  | cons c cs ih =>
    simp only [List.mem_cons, not_or] at whole
    rw [segments, ih whole.2]
    exact if_neg (Ne.symm whole.1)

private theorem segments_ne_nil (cs : List Char) : segments cs ≠ [] := by
  cases cs with
  | nil => simp [segments]
  | cons c cs =>
    rw [segments]
    split
    · simp
    · split <;> simp

private theorem segments_slash (front cs : List Char) :
    segments (front ++ '/' :: cs) = segments front ++ segments cs := by
  induction front with
  | nil =>
    have some := segments_ne_nil cs
    cases found : segments cs with
    | nil => contradiction
    | cons s rest => simp [segments, found]
  | cons c front ih =>
    have some := segments_ne_nil front
    rw [List.cons_append, segments, ih, segments]
    cases found : segments front with
    | nil => contradiction
    | cons s rest =>
      simp only [List.cons_append]
      split <;> rfl

private theorem joined_segments (front : List Char) :
    (segments front).flatMap (· ++ ['/']) = front ++ ['/'] := by
  induction front with
  | nil => rfl
  | cons c front ih =>
    have some := segments_ne_nil front
    rw [segments]
    cases found : segments front with
    | nil => contradiction
    | cons s rest =>
      rw [found] at ih
      dsimp only
      split
      · next slash => simpa [slash] using ih
      · simpa using ih

/-- What stands before a name: nothing, or a text that ends in a slash. -/
def IsLead (lead : List Char) : Prop := lead = [] ∨ ∃ front, lead = front ++ ['/']

variable {lead : List Char}

private theorem IsLead.names (isLead : IsLead lead) : ∃ before : List FileName,
    before.flatMap (· ++ ['/']) = lead ∧
      ∀ name : FileName, '/' ∉ name → (⟨lead ++ name⟩ : FilePath).names = before ++ [name] := by
  rcases isLead with rfl | ⟨front, rfl⟩
  · exact ⟨[], rfl, fun name whole => segments_of_name whole⟩
  · refine ⟨segments front, joined_segments front, fun name whole => ?_⟩
    unfold FilePath.names
    rw [List.append_assoc, List.singleton_append, segments_slash, segments_of_name whole]

private theorem IsLead.lastName? (isLead : IsLead lead) {name : FileName} (whole : '/' ∉ name)
    (proper : name.isProper = true) : (⟨lead ++ name⟩ : FilePath).lastName? = some (lead, name) := by
  obtain ⟨before, joined, names⟩ := isLead.names
  have notIdle : FileName.isIdle name = false := by
    rw [FileName.isProper, Bool.and_eq_true, Bool.not_eq_true'] at proper
    exact proper.1
  rw [FilePath.lastName?, names name whole, List.reverse_append, List.reverse_singleton,
    List.singleton_append, List.dropWhile_cons_of_neg (by simp [notIdle])]
  simp [proper, joined]

private theorem IsLead.start (isLead : IsLead lead) {name : FileName} (whole : '/' ∉ name) :
    (⟨lead ++ name⟩ : FilePath).start = (⟨lead⟩ : FilePath).start := by
  unfold FilePath.start
  rcases isLead with rfl | ⟨front, rfl⟩
  · cases name with
    | nil => rfl
    | cons c rest =>
      have other : c ≠ '/' := fun same => whole (same ▸ List.mem_cons_self)
      simp [other]
  · cases front <;> rfl

private theorem IsLead.location (isLead : IsLead lead) : ∃ directory : Location, ∀ name : FileName, '/' ∉ name →
    name.isProper = true → (⟨lead ++ name⟩ : FilePath).location = directory ++ [name] := by
  obtain ⟨before, _, names⟩ := isLead.names
  refine ⟨before.foldl enter (⟨lead⟩ : FilePath).start, fun name whole proper => ?_⟩
  unfold FilePath.location
  rw [names name whole, isLead.start whole, List.foldl_append]
  simp only [FileName.isProper, Bool.and_eq_true, Bool.not_eq_true', decide_eq_true_eq] at proper
  simp [enter, proper]

end FilePath

namespace FileName

private theorem stem_append {front ext : List Char} (some : front ≠ []) (last : '.' ∉ ext) :
    stem (front ++ '.' :: ext) = front := by
  have dropped : (front ++ '.' :: ext).reverse.dropWhile (· ≠ '.') = '.' :: front.reverse := by
    rw [List.reverse_append, List.reverse_cons, List.append_assoc,
      List.dropWhile_append_of_pos, List.singleton_append]
    · rfl
    · intro c member
      simp only [ne_eq, decide_eq_true_eq]
      rintro rfl
      exact last (List.mem_reverse.mp member)
  unfold stem
  rw [dropped, List.tail_cons, List.reverse_reverse]
  simp [some]

private theorem extension_append {front ext : List Char} (some : front ≠ []) (last : '.' ∉ ext) :
    extension (front ++ '.' :: ext) = ext := by
  unfold extension
  rw [stem_append some last]
  simp

private theorem isProper_append {front ext : List Char} (some : front ≠ []) (other : front ≠ ['.']) :
    isProper (front ++ '.' :: ext) = true := by
  match front with
  | [] => contradiction
  | [c] =>
    have away : c ≠ '.' := fun same => other (same ▸ rfl)
    simp [isProper, isIdle, above, away]
  | _ :: _ :: _ => simp [isProper, isIdle, above]

end FileName

namespace FilePath
open FileName
variable {lead front ext : List Char}

private theorem withExtension_eq (isLead : IsLead lead) (some : front ≠ []) (other : front ≠ ['.'])
    (whole : '/' ∉ front) (short : '/' ∉ ext) (last : '.' ∉ ext) (new : List Char) :
    (⟨lead ++ (front ++ '.' :: ext)⟩ : FilePath).withExtension new =
      ⟨lead ++ (front ++ '.' :: new)⟩ := by
  have name : '/' ∉ front ++ '.' :: ext := by simp [whole, short]
  have bareName : '/' ∉ front ++ ['.'] := by simp [whole]
  have cut : (lead ++ (front ++ '.' :: ext)).take
      ((lead ++ (front ++ '.' :: ext)).length - ext.length) = lead ++ (front ++ ['.']) := by
    have split : lead ++ (front ++ '.' :: ext) = lead ++ (front ++ ['.']) ++ ext := by simp
    rw [split, List.length_append, Nat.add_sub_cancel]
    exact List.take_left
  have isProper : FileName.isProper (front ++ '.' :: ext) = true := isProper_append some other
  have bareProper : FileName.isProper (front ++ ['.']) = true := isProper_append some other
  have bare : stem (front ++ ['.']) = front := stem_append some (by simp)
  unfold withExtension
  rw [isLead.lastName? name isProper]
  dsimp only [Option.map_some, Option.getD_some]
  rw [extension_append some last, cut, isLead.lastName? bareName bareProper]
  dsimp only
  rw [bare, List.append_assoc]

theorem location_withExtension_iff (isLead : IsLead lead) (some : front ≠ []) (other : front ≠ ['.'])
    (whole : '/' ∉ front) (short : '/' ∉ ext) (last : '.' ∉ ext) {new : List Char} (plain : '/' ∉ new) :
    ((⟨lead ++ (front ++ '.' :: ext)⟩ : FilePath).withExtension new).location =
      (⟨lead ++ (front ++ '.' :: ext)⟩ : FilePath).location ↔ new = ext := by
  obtain ⟨directory, leads⟩ := isLead.location
  rw [withExtension_eq isLead some other whole short last,
    leads _ (by simp [whole, plain]) (isProper_append some other),
    leads _ (by simp [whole, short]) (isProper_append some other)]
  simp

end FilePath
end Calorimetry
