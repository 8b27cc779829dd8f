import DialogueExport.Outcome
import DialogueExport.Proofs.FilePath.Output

/-!
# Which place a path leads to

If a path leads anywhere, its components alone say where: what is there decides only whether it leads
anywhere (`placeOf_eq_of_locate`).  For that, in turn, only the directories count, and where paths start
(`locate_eq_ok_iff`).  Writing a file touches neither (`sameDirectories_of_write`), so the same paths lead
to the same places before and after.
-/

namespace DialogueExport

namespace FileSystem

open FilePath (Component)

variable {fs fs' : FileSystem} {p : FilePath} {place other : Location} {content : ByteArray}

/-! ## 1. Places by components -/

/-- Goes on from a place by a component. -/
def enter (place : Location) : Component → Location
  | .root => []
  | .current => place
  | .parent => place.dropLast
  | .normal name => place ++ [name]

/-- The place that a path leads to, if it leads anywhere. -/
def placeOf (fs : FileSystem) (p : FilePath) : Location := p.components.foldl enter fs.workingDirectory

/-- A piece leads on from a directory.  One that is no component leads nowhere else. -/
theorem walk_cons_eq_ok_iff {piece : List Char} {pieces : List (List Char)} :
    fs.walk place (piece :: pieces) = .ok other ↔
      fs.find? place = some .directory ∧ Text.bytes piece ≤ longestName ∧
        fs.walk ((Component.ofPiece? piece).elim place (enter place)) pieces = .ok other := by
  rw [walk, Component.ofPiece?]
  split
  · next h => simp [h]
  · next h => simp [h]
  · next h =>
    by_cases hidle : FilePath.isIdle piece
    · have hlen : Text.bytes piece ≤ longestName := by
        rcases (by simpa [FilePath.isIdle] using hidle : piece = [] ∨ piece = ['.']) with rfl | rfl <;>
          decide
      simp [h, hidle, hlen]
    · by_cases hparent : piece = ['.', '.']
      · have hlen : Text.bytes piece ≤ longestName := by rw [hparent]; decide
        rw [if_neg hidle, if_pos hparent, if_neg hidle, if_pos hparent]
        simp [h, hlen, enter]
      · by_cases hlen : longestName < Text.bytes piece
        · simp [hidle, hparent, hlen, Nat.not_le.mpr hlen]
        · simp [h, hidle, hparent, hlen, Nat.not_lt.mp hlen, enter]

theorem eq_of_walk {pieces : List (List Char)} (h : fs.walk place pieces = .ok other) :
    other = (pieces.filterMap Component.ofPiece?).foldl enter place := by
  induction pieces generalizing place with
  | nil => exact (Except.ok.inj h).symm
  | cons piece pieces ih =>
    rw [ih (walk_cons_eq_ok_iff.mp h).2.2]
    cases hc : Component.ofPiece? piece with
    | none => rw [List.filterMap_cons_none hc, Option.elim_none]
    | some c => rw [List.filterMap_cons_some hc, Option.elim_some, List.foldl_cons]

theorem foldl_enter_headComponents (fs : FileSystem) (s : List Char) :
    (FilePath.headComponents s).foldl enter fs.workingDirectory = fs.origin s := by
  unfold FilePath.headComponents FilePath.head origin
  split
  · rfl
  · rfl
  · rfl
  · next hslash _ _ =>
    cases s with
    | nil => rfl
    | cons c s =>
      have hc : c ≠ '/' := by rintro rfl; exact hslash s rfl
      simp [hc]

/-- The components of a path say where it leads. -/
theorem placeOf_eq_of_locate (h : fs.locate p = .ok place) : fs.placeOf p = place := by
  unfold locate at h
  dsimp only at h
  split at h
  · cases h
  · rw [placeOf, FilePath.components_eq, FilePath.componentsOf, List.foldl_append,
      foldl_enter_headComponents]
    exact (eq_of_walk h).symm

/-- A path with an extension leads to its name in a directory; the path of its table, if it leads
anywhere, leads to the name of the table in the same directory. -/
theorem exists_placeOf_eq {extension : List Char} (h : p.extension? = some extension) :
    ∃ dir : Location, fs.placeOf p = dir ++ [p.stem ++ '.' :: extension] ∧
      fs.placeOf p.outputFor = dir ++ [p.stem ++ FilePath.outputSuffix] := by
  refine ⟨p.directory.foldl enter fs.workingDirectory, ?_, ?_⟩
  · simp only [placeOf, FilePath.components_of_extension? h, List.foldl_append, List.foldl_cons, enter,
      List.foldl_nil]
  · simp only [placeOf, FilePath.components_outputFor h, List.foldl_append, List.foldl_cons, enter,
      List.foldl_nil]

/-! ## 2. What paths depend on -/

/-- Paths start at the same place and find the same directories. -/
structure SameDirectories (fs fs' : FileSystem) : Prop where
  workingDirectory : fs'.workingDirectory = fs.workingDirectory
  directory_iff : ∀ place, fs'.find? place = some .directory ↔ fs.find? place = some .directory

theorem SameDirectories.placeOf_eq (h : SameDirectories fs fs') (p : FilePath) :
    fs'.placeOf p = fs.placeOf p := by
  rw [placeOf, placeOf, h.workingDirectory]

theorem SameDirectories.walk_eq_ok_iff (h : SameDirectories fs fs') {pieces : List (List Char)} :
    fs'.walk place pieces = .ok other ↔ fs.walk place pieces = .ok other := by
  induction pieces generalizing place with
  | nil => rfl
  | cons piece pieces ih => rw [walk_cons_eq_ok_iff, walk_cons_eq_ok_iff, h.directory_iff, ih]

/-- The same paths lead to the same places. -/
theorem SameDirectories.locate_eq_ok_iff (h : SameDirectories fs fs') :
    fs'.locate p = .ok place ↔ fs.locate p = .ok place := by
  unfold locate origin
  rw [h.workingDirectory]
  dsimp only
  split
  · exact Iff.rfl
  · exact h.walk_eq_ok_iff

/-! ## 3. Reading and writing -/

theorem read_eq_ok_iff :
    fs.read p = .ok content ↔
      fs.locate p = .ok (fs.placeOf p) ∧ fs.find? (fs.placeOf p) = some (.file content) := by
  rw [read, bind_eq_ok]
  constructor
  · rintro ⟨place, hl, hr⟩
    obtain rfl := placeOf_eq_of_locate hl
    refine ⟨hl, ?_⟩
    split at hr
    · cases hr
    · cases hr
    · next c hc => rw [hc, Except.ok.inj hr]
  · rintro ⟨hl, hf⟩
    exact ⟨_, hl, by rw [hf]⟩

theorem isFile_iff : fs.isFile p = true ↔ ∃ content, fs.read p = .ok content := by
  simp only [read_eq_ok_iff, isFile]
  cases hl : fs.locate p with
  | error fault => simp
  | ok place =>
    obtain rfl := placeOf_eq_of_locate hl
    cases hf : fs.find? (fs.placeOf p) with
    | none => simp [hf]
    | some e => cases e <;> simp [hf]

theorem write_eq_ok_iff :
    fs.write p content = .ok fs' ↔
      fs.locate p = .ok (fs.placeOf p) ∧ fs.find? (fs.placeOf p) ≠ some .directory ∧
        fs' = fs.put (fs.placeOf p) (.file content) := by
  rw [write, bind_eq_ok]
  constructor
  · rintro ⟨place, hl, hw⟩
    obtain rfl := placeOf_eq_of_locate hl
    split at hw
    · cases hw
    · next hd => exact ⟨hl, hd, (Except.ok.inj hw).symm⟩
  · rintro ⟨hl, hd, rfl⟩
    refine ⟨_, hl, ?_⟩
    split
    · next h => exact absurd h hd
    · rfl

theorem find?_of_write (h : fs.write p content = .ok fs') (other : Location) :
    fs'.find? other = if other = fs.placeOf p then some (.file content) else fs.find? other := by
  obtain ⟨-, hd, rfl⟩ := write_eq_ok_iff.mp h
  split
  · next ho =>
    subst ho
    -- The root is a directory, so nothing is written there.
    exact fs.find?_put_self _ fun hroot => hd (by rw [hroot, find?, if_pos rfl])
  · next ho => exact fs.find?_put_of_ne _ ho

/-- Writing a file leaves the directories as they are. -/
theorem sameDirectories_of_write (h : fs.write p content = .ok fs') : SameDirectories fs fs' where
  workingDirectory := by
    obtain ⟨-, -, rfl⟩ := write_eq_ok_iff.mp h
    rfl
  directory_iff := by
    intro place
    rw [find?_of_write h]
    split
    · next ho =>
      obtain ⟨-, hd, -⟩ := write_eq_ok_iff.mp h
      subst ho
      simp [hd]
    · rfl

end FileSystem

end DialogueExport
