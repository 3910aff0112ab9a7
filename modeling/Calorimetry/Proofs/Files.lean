import Calorimetry.Files
import Mathlib.Data.List.Induction

/-! What the steps of writing a file do to the contents. Where a path leads is told by its names alone, so a step
changes the content at one location, and moving a file changes it at two. -/

namespace Calorimetry
open Location (enter)

namespace Files
variable {f g : Files} {path : FilePath} {l : Location}

@[simp] theorem content?_put_self (f : Files) (l : Location) (bytes : List UInt8) :
    (f.put l bytes).content? l = some bytes := by
  simp [put, content?]

theorem content?_remove (f : Files) {l other : Location} (apart : other ≠ l) :
    (f.remove l).content? other = f.content? other := by
  unfold remove content?
  induction f.contents with
  | nil => rfl
  | cons e rest ih =>
    obtain ⟨at_, bytes⟩ := e
    by_cases gone : at_ = l
    · subst at_
      simpa [List.lookup_cons, beq_false_of_ne apart] using ih
    · simp only [List.filter_cons, ne_eq, gone, not_false_eq_true, decide_true, if_true,
        List.lookup_cons]
      rw [ih]

theorem content?_put (f : Files) {l other : Location} (apart : other ≠ l) (bytes : List UInt8) :
    (f.put l bytes).content? other = f.content? other := by
  rw [← content?_remove f apart]
  simp [put, content?, List.lookup_cons, beq_false_of_ne apart]

@[simp] theorem directories_put (f : Files) (l : Location) (bytes : List UInt8) :
    (f.put l bytes).directories = f.directories := rfl

/-! ## Where paths lead -/

private theorem advance_ok {name : FileName} {next : Location} (led : f.advance l name = .ok next) :
    next = l.enter name := by
  unfold advance at led
  split at led
  · cases led
  · split at led
    · cases led
    · cases led
      rfl

private theorem foldlM_advance {names : List FileName} {final : Location}
    (led : names.foldlM f.advance l = .ok final) : final = names.foldl enter l := by
  induction names generalizing l with
  | nil =>
    cases led
    rfl
  | cons name rest ih =>
    rw [List.foldlM_cons] at led
    cases first : f.advance l name with
    | error fault => simp [first, bind, Except.bind] at led
    | ok next =>
      rw [first] at led
      rw [List.foldl_cons, ← advance_ok first]
      exact ih led

private theorem follow_ok {names : List FileName} (led : f.follow path names = .ok l) :
    l = names.foldl enter path.start := by
  unfold follow at led
  split at led
  · cases led
  · split at led
    · cases led
    · split at led
      · cases led
      · exact foldlM_advance led

private theorem advance_of_directories (same : g.directories = f.directories) {name : FileName}
    {next : Location} (led : f.advance l name = .ok next) : g.advance l name = .ok next := by
  have kind : g.isDirectory l = f.isDirectory l := by simp [isDirectory, same]
  unfold advance at led ⊢
  rw [kind]
  split at led
  · cases led
  · next walkable => rw [if_neg walkable]; exact led

private theorem follow_of_directories (same : g.directories = f.directories) {names : List FileName}
    (led : f.follow path names = .ok l) : g.follow path names = .ok l := by
  have rest {names : List FileName} {start : Location} (led : names.foldlM f.advance start = .ok l) :
      names.foldlM g.advance start = .ok l := by
    induction names generalizing start with
    | nil => exact led
    | cons name rest ih =>
      rw [List.foldlM_cons] at led ⊢
      cases first : f.advance start name with
      | error fault => simp [first, bind, Except.bind] at led
      | ok next =>
        rw [first] at led
        rw [advance_of_directories same first]
        exact ih led
  unfold follow at led ⊢
  split at led
  · cases led
  · split at led
    · cases led
    · split at led
      · cases led
      · next sound proper short =>
        rw [if_neg sound, if_neg proper, if_neg short]
        exact rest led

/-- What stands behind the last slashes leads nowhere. -/
private theorem foldl_enter_trimmed (names : List FileName) (l : Location) :
    ((names.reverse.dropWhile List.isEmpty).reverse).foldl enter l = names.foldl enter l := by
  -- From the back, since that is where names are dropped.
  induction names using List.reverseRecOn with
  | nil => rfl
  | append_singleton names name ih =>
    rw [List.reverse_concat, List.dropWhile_cons]
    by_cases nothing : name = []
    · subst nothing
      simp only [List.isEmpty_nil, if_true]
      rw [ih, List.foldl_append]
      rfl
    · rw [if_neg (by simpa using nothing), List.reverse_cons, List.reverse_reverse]

/-! ## Steps -/

private theorem read_ok {bytes : List UInt8} (found : f.read path = .ok bytes) :
    f.content? path.location = some bytes := by
  unfold read at found
  cases led : f.follow path path.names with
  | error fault => simp [led, bind, Except.bind] at found
  | ok l =>
    rw [led] at found
    simp only [bind, Except.bind] at found
    have here : l = path.location := follow_ok led
    split at found
    · cases found
    · split at found
      · next bytes' there =>
        cases found
        rw [← here, there]
      · cases found

private theorem place_ok {bytes : List UInt8} (placed : f.place path bytes = .ok g) :
    g = f.put path.location bytes := by
  unfold place at placed
  cases led : f.follow path path.names with
  | error fault => simp [led, bind, Except.bind] at placed
  | ok l =>
    rw [led] at placed
    simp only [bind, Except.bind] at placed
    have here : l = path.location := follow_ok led
    split at placed
    · cases placed
    · cases placed
      rw [here]

/-- A file can be moved to where its path leads, and the path then leads to it. -/
structure Lands (f : Files) (path : FilePath) (l : Location) : Prop where
  location : l = path.location
  follow : f.follow path path.names = .ok l
  free : f.isDirectory l = false

private theorem landing_ok (landed : f.landing path = .ok l) : f.Lands path l := by
  dsimp only [landing] at landed
  cases led : f.follow path (path.names.reverse.dropWhile List.isEmpty).reverse with
  | error fault => simp [led, bind, Except.bind] at landed
  | ok l' =>
    rw [led] at landed
    simp only [bind, Except.bind] at landed
    split at landed
    · cases landed
    split at landed
    · cases landed
    next whole =>
    split at landed
    · cases landed
    next free =>
    cases landed
    -- A path that ends in a slash has been refused, so no name was dropped.
    have all : (path.names.reverse.dropWhile List.isEmpty).reverse = path.names := by
      have suffix := List.dropWhile_suffix List.isEmpty (l := path.names.reverse)
      have same : path.names.reverse.dropWhile List.isEmpty = path.names.reverse := by
        apply suffix.eq_of_length_le
        simpa using whole
      rw [same, List.reverse_reverse]
    refine ⟨?_, all ▸ led, by simpa using free⟩
    rw [follow_ok led, foldl_enter_trimmed]
    rfl

/-- Whether a file can be somewhere is told by the directories. -/
theorem Lands.of_directories (lands : f.Lands path l) (same : g.directories = f.directories) :
    g.Lands path l where
  location := lands.location
  follow := follow_of_directories same lands.follow
  free := by
    rw [← lands.free, isDirectory, isDirectory, same]

theorem Lands.place (lands : f.Lands path l) (bytes : List UInt8) :
    f.place path bytes = .ok (f.put l bytes) := by
  unfold Files.place
  rw [lands.follow]
  simp [bind, Except.bind, pure, Except.pure, lands.free]

theorem Lands.read {bytes : List UInt8} (lands : f.Lands path l) (there : f.content? l = some bytes) :
    f.read path = .ok bytes := by
  unfold Files.read
  rw [lands.follow]
  simp [bind, Except.bind, pure, Except.pure, lands.free, there]

theorem landing_of_directories (landed : f.landing path = .ok l) (same : g.directories = f.directories) :
    g.landing path = .ok l := by
  have kind : g.isDirectory = f.isDirectory := funext fun l => by rw [isDirectory, isDirectory, same]
  dsimp only [landing] at landed ⊢
  cases led : f.follow path (path.names.reverse.dropWhile List.isEmpty).reverse with
  | error fault => simp [led, bind, Except.bind] at landed
  | ok l' =>
    rw [led] at landed
    rw [follow_of_directories same led, kind]
    exact landed

theorem perform_create {path : FilePath} (done : f.perform (.create path) = .ok g) :
    g = f.put path.location [] := place_ok done

theorem perform_write {path : FilePath} {bytes : List UInt8}
    (done : f.perform (.write path bytes) = .ok g) :
    ∃ old, f.content? path.location = some old ∧ g = f.put path.location (old ++ bytes) := by
  dsimp only [perform] at done
  cases found : f.read path with
  | error fault => simp [found, bind, Except.bind] at done
  | ok old =>
    rw [found] at done
    exact ⟨old, read_ok found, place_ok done⟩

/-- A moved file is at the target and nowhere else. -/
theorem perform_rename {source target : FilePath} (done : f.perform (.rename source target) = .ok g) :
    ∃ bytes, f.content? source.location = some bytes ∧ f.Lands target target.location ∧
      g = if source.location = target.location then f.put target.location bytes
        else (f.put target.location bytes).remove source.location := by
  dsimp only [perform] at done
  cases found : f.read source with
  | error fault => simp [found, bind, Except.bind] at done
  | ok bytes =>
    cases landed : f.landing target with
    | error fault => simp [found, landed, bind, Except.bind] at done
    | ok l =>
      have lands := landing_ok landed
      rw [found, landed] at done
      cases done
      rw [← lands.location]
      exact ⟨bytes, read_ok found, lands, rfl⟩

theorem content?_moved {source target : FilePath} {bytes : List UInt8}
    (done : f.perform (.rename source target) = .ok g)
    (content : f.content? source.location = some bytes) :
    g.content? target.location = some bytes := by
  obtain ⟨_, found, _, rfl⟩ := perform_rename done
  rw [content, Option.some.injEq] at found
  subst found
  split
  · exact content?_put_self f _ bytes
  · next apart => rw [content?_remove _ (Ne.symm apart), content?_put_self]

/-- A moved file can be read where it went. -/
theorem read_moved {source target : FilePath} {bytes : List UInt8}
    (done : f.perform (.rename source target) = .ok g)
    (content : f.content? source.location = some bytes) : g.read target = .ok bytes := by
  obtain ⟨_, _, lands, after⟩ := perform_rename done
  have same : g.directories = f.directories := by
    rw [after]
    split <;> rfl
  exact (lands.of_directories same).read (content?_moved done content)

end Files
end Calorimetry
