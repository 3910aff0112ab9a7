import Calorimetry.Proofs.Config
import Calorimetry.Proofs.Csv
import Calorimetry.Proofs.TableFile.Saving

/-! Saved tables read back. What is written of finite points has the headings and then, a line each, the texts of
their values, and these are read as the same values. -/

namespace Calorimetry.TableFile

/-! ## Content -/

variable {p : Point Float} {points : List (Point Float)} {codec : Csv.Codec}

/-- With and without points, the headings are on the first line. -/
private theorem content_eq (points : List (Point Float)) (codec : Csv.Codec) :
    content points codec = (headings :: points.map (texts codec)).flatMap codec.line := by
  cases points with
  | nil => simp [content, Csv.Codec.serialize]
  | cons p points => rfl

private theorem headings_isWords : Csv.IsWords headings where
  some := List.cons_ne_nil _ _
  word cs member := by
    rcases List.mem_pair.mp member with rfl | rfl
    · exact ⟨by simp, by simp [Csv.isInked]⟩
    · exact ⟨by simp, by simp [Csv.isInked]⟩

private theorem texts_isWords (lawful : codec.Lawful) (finite : p.isFinite = true) :
    Csv.IsWords (texts codec p) where
  some := List.cons_ne_nil _ _
  word cs member := by
    rw [Point.isFinite, Bool.and_eq_true] at finite
    rcases List.mem_pair.mp member with rfl | rfl
    · exact lawful.number_isWord finite.1
    · exact lawful.number_isWord finite.2

private theorem rows_content (lawful : codec.Lawful) (finite : ∀ p ∈ points, p.isFinite = true) :
    codec.rows (content points codec) = some headings :: (points.map (texts codec)).map some := by
  rw [content_eq, lawful.rows_lines]
  · rfl
  · intro row member
    rcases List.mem_cons.mp member with rfl | member
    · exact headings_isWords
    · obtain ⟨p, within, rfl⟩ := List.mem_map.mp member
      exact texts_isWords lawful (finite p within)

private theorem point?_texts (lawful : codec.Lawful) (finite : p.isFinite = true) :
    point? codec (texts codec p) = some p := by
  rw [Point.isFinite, Bool.and_eq_true] at finite
  simp [point?, texts, lawful.number?_number finite.1, lawful.number?_number finite.2]

private theorem rows_texts (lawful : codec.Lawful) (finite : ∀ p ∈ points, p.isFinite = true) (n : ℕ) :
    rows codec n ((points.map (texts codec)).map some) = .ok points := by
  induction points generalizing n with
  | nil => rfl
  | cons p points ih =>
    obtain ⟨first, others⟩ := List.forall_mem_cons.mp finite
    rw [List.map_cons, List.map_cons, rows, Option.bind_some, point?_texts lawful first, ih others]
    rfl

/-- What was written of finite points is read as these points, and then checked. -/
theorem ofBytes_content (lawful : codec.Lawful) (finite : ∀ p ∈ points, p.isFinite = true) :
    ofBytes (content points codec) codec =
      match Config.pointFault? points with
      | none => .ok points
      | some fault => .error (.points fault) := by
  unfold ofBytes
  rw [rows_content lawful finite]
  dsimp only [List.head?_cons, Option.getD_some, List.tail_cons]
  rw [rows_texts lawful finite, if_neg (not_not_intro rfl)]
  simp only [bind, Except.bind]
  cases Config.pointFault? points <;> rfl

/-! ## Saving and loading -/

variable {σ : Type} {access : FileAccess (StateM σ)} {files : σ → Files} {path : FilePath} {f g : Files}

private theorem read_of_saving (leaves : f.Leaves (saving path points) (.ok ()) g) :
    g.read path = .ok (content points) := by
  rw [saving_eq] at leaves
  rcases leaves.append with ⟨_, failed, _⟩ | ⟨k, drafts, last⟩
  · cases failed
  · cases last with
    | step _ done rest =>
      cases rest
      exact Files.read_moved done (drafted drafts)

/-- What loading from the path gives once the points have been saved there. -/
def Reloads (access : FileAccess (StateM σ)) (files : σ → Files) (path : FilePath)
    (points : List (Point Float)) (loaded : Except Fault (List (Point Float))) : Prop :=
  ∀ s s', (access.performAll (saving path points)).run s = (.ok (), s') →
    ofRead ((files s').read path) = loaded

private theorem reloads_checked (faithful : access.Faithful files) (path : FilePath)
    (finite : ∀ p ∈ points, p.isFinite = true) : Reloads access files path points
      (match Config.pointFault? points with
        | none => .ok points
        | some fault => .error (.points fault)) := by
  intro s s' saved
  have leaves := faithful.performAll_leaves (saving path points) s
  rw [saved] at leaves
  rw [read_of_saving leaves]
  exact ofBytes_content Csv.Codec.usual_lawful finite

private theorem reloads_table (faithful : access.Faithful files) (path : FilePath) (t : Table Float) :
    Reloads access files path t.points (.ok t.points) := by
  have finite := ((Point.fault?_eq_none_iff t.points).mp t.sound).1
  have accepted := (Config.pointFault?_eq_none_iff t.points).mpr t.sound
  have reloads := reloads_checked faithful path finite
  rwa [accepted] at reloads

/-- Finite points that have been saved are loaded exactly as they were if the check accepts them, and not at all
otherwise. It accepts the points of every table, so a calibration outlives its run. -/
theorem saved_points_reload (faithful : access.Faithful files) (path : FilePath) :
    (∀ points : List (Point Float), (∀ p ∈ points, p.isFinite = true) →
      Reloads access files path points
        (match Config.pointFault? points with
          | none => .ok points
          | some fault => .error (.points fault))) ∧
    (∀ (points : List (Point Float)) (t : Table Float), Table.ofPoints points = .ok t →
      Reloads access files path t.points (.ok points)) ∧
    ∀ {τ : Type} (plan : Calibration.Plan Float) (env : Calibration.Environment τ Float) (w : τ)
      (t : Table Float), (Calibration.run plan env w).1 = .ok t →
        Reloads access files path t.points (.ok t.points) := by
  refine ⟨fun points finite => reloads_checked faithful path finite, fun points t made => ?_,
    fun _ _ _ t _ => reloads_table faithful path t⟩
  rcases Table.ofPoints_cases points with ⟨table, made', same, _⟩ | ⟨e, refused, _⟩
  · rw [made, Except.ok.injEq] at made'
    rw [← same, ← made']
    exact reloads_table faithful path t
  · rw [made] at refused
    cases refused

/-- A negative zero and a step, saved over an older table. -/
theorem saved_points_reload_step :
    let path := FilePath.ofText "t.csv"
    let points : List (Point Float) := [⟨-0.0, -0.0⟩, ⟨-0.0, 0.1⟩, ⟨0.0041, 10.87⟩]
    let f := ({} : Files).put path.location [0x61, 0x0A]
    FileAccess.stored.Faithful id ∧ ∃ g,
      (FileAccess.stored.performAll (saving path points)).run f = (.ok (), g) ∧
        ofRead (g.read path) = .ok points := by
  intro path points f
  have finite : ∀ p ∈ points, p.isFinite = true := by decide
  have accepted : Config.pointFault? points = none := by decide
  have lands : f.Lands (draft path) ["t.new".toList] := ⟨rfl, rfl, rfl⟩
  have landed : f.landing path = .ok ["t.csv".toList] := rfl
  obtain ⟨g, saved⟩ := saving_done lands landed points
  have reloads := (saved_points_reload FileAccess.stored_faithful path).1 points finite f g saved
  rw [accepted] at reloads
  exact ⟨FileAccess.stored_faithful, g, saved, reloads⟩

end Calorimetry.TableFile
