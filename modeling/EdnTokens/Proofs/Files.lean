import Mathlib.Tactic.Common
import EdnTokens.Files.Tree

/-!
# Changes of file trees

What the operations on a file tree change, and what they leave alone.

Making directories never takes anything away: the tree grows by directories (`FileTree.Grows`), so
that whatever a path led to before, it leads to afterwards. Writing a file changes the one location
its path leads to. Since no directory lies there, the change is on the way to no other place, and
the path still leads to the same location (`FileTree.locate?_set`); so what was written can be read
back (`FileTree.content?_of_write`).
-/

namespace EdnTokens.FileTree

variable {t t' t'' : FileTree} {location : List String} {path : String}

/-! ### Steps -/

/-- Only a directory can be left for something in it. -/
lemma step?_of_no_directory (h : t.hasDirectory location = false) (part : String) :
    t.step? location part = none := by
  simp [FileTree.step?, h]

/-- An idle part stays in a directory. -/
lemma step?_of_isIdle (h : t.hasDirectory location = true) {part : String}
    (hidle : Path.isIdle part = true) : t.step? location part = some location := by
  simp [FileTree.step?, h, hidle]

/-- A path that leads to a file has the content of that file. -/
lemma content?_of_locate? {content : ByteArray} (hlocate : t.locate? path = some location)
    (hlies : t.entryAt? location = some (.file content)) : t.content? path = some content := by
  rw [FileTree.content?, FileTree.entry?, hlocate, Option.bind_some, hlies]

/-! ### Growing trees -/

/-- The second tree has all that the first one has, and otherwise only more directories. -/
structure Grows (t t' : FileTree) : Prop where
  workingDirectory : t'.workingDirectory = t.workingDirectory
  entryAt? : ∀ location, t'.entryAt? location = t.entryAt? location ∨
    t.entryAt? location = none ∧ t'.entryAt? location = some .directory

namespace Grows

/-- A tree that nothing was done to has grown by nothing. -/
lemma refl (t : FileTree) : Grows t t :=
  ⟨rfl, fun _ => .inl rfl⟩

/-- A tree may grow several times. -/
lemma trans (h : Grows t t') (h' : Grows t' t'') : Grows t t'' := by
  refine ⟨h'.workingDirectory.trans h.workingDirectory, fun location => ?_⟩
  rcases h.entryAt? location with hsame | ⟨hnone, hmade⟩
  · rw [← hsame]
    exact h'.entryAt? location
  · rcases h'.entryAt? location with hsame' | ⟨hnone', -⟩
    · exact .inr ⟨hnone, hsame'.trans hmade⟩
    · rw [hmade] at hnone'
      cases hnone'

/-- What lies somewhere stays there. -/
lemma entryAt?_eq_some (h : Grows t t') {entry : FileEntry}
    (hentry : t.entryAt? location = some entry) : t'.entryAt? location = some entry := by
  rcases h.entryAt? location with hsame | ⟨hnone, -⟩
  · rw [hsame, hentry]
  · rw [hnone] at hentry
    cases hentry

/-- Directories stay directories. -/
lemma hasDirectory (h : Grows t t') (hdirectory : t.hasDirectory location = true) :
    t'.hasDirectory location = true := by
  unfold FileTree.hasDirectory at hdirectory ⊢
  rw [beq_iff_eq] at hdirectory ⊢
  exact h.entryAt?_eq_some hdirectory

/-- A step leads where it led before. -/
lemma step? (h : Grows t t') {part : String} {next : List String}
    (hstep : t.step? location part = some next) : t'.step? location part = some next := by
  unfold FileTree.step? at hstep ⊢
  cases hdirectory : t.hasDirectory location with
  | false => simp [hdirectory] at hstep
  | true =>
    rw [h.hasDirectory hdirectory]
    rwa [hdirectory] at hstep

/-- So do several steps, one after the other. -/
lemma follow? (h : Grows t t') {parts : List String} {place : List String}
    (hfollow : t.follow? location parts = some place) : t'.follow? location parts = some place := by
  induction parts generalizing location with
  | nil => exact hfollow
  | cons part parts ih =>
    unfold FileTree.follow? at hfollow ⊢
    cases hstep : t.step? location part with
    | none => simp [hstep] at hfollow
    | some next =>
      rw [hstep] at hfollow
      rw [h.step? hstep]
      exact ih hfollow

/-- A path has the location that it had before. -/
lemma locate? (h : Grows t t') (hlocate : t.locate? path = some location) :
    t'.locate? path = some location := by
  unfold FileTree.locate? at hlocate ⊢
  rw [h.workingDirectory]
  split_ifs at hlocate ⊢
  all_goals exact h.follow? hlocate

/-- A path leads to what it led to before. -/
lemma entry? (h : Grows t t') {entry : FileEntry} (hentry : t.entry? path = some entry) :
    t'.entry? path = some entry := by
  obtain ⟨location, hlocate, hlies⟩ := Option.bind_eq_some_iff.mp hentry
  exact Option.bind_eq_some_iff.mpr ⟨location, h.locate? hlocate, h.entryAt?_eq_some hlies⟩

/-- Files keep their content. -/
lemma content? (h : Grows t t') {content : ByteArray} (hcontent : t.content? path = some content) :
    t'.content? path = some content := by
  unfold FileTree.content? at hcontent ⊢
  split at hcontent
  case h_1 hfile =>
    rw [h.entry? hfile]
    exact hcontent
  case h_2 => cases hcontent

end Grows

/-! ### Making directories -/

/-- What was put at a location lies there. -/
@[simp]
lemma entryAt?_set_self (t : FileTree) (location : List String) (entry : FileEntry) :
    (t.set location entry).entryAt? location = some entry :=
  if_pos rfl

/-- What was put at one location changes nothing at another. -/
lemma entryAt?_set_of_ne {l : List String} (h : l ≠ location) (entry : FileEntry) :
    (t.set location entry).entryAt? l = t.entryAt? l :=
  if_neg h

/-- A directory in an empty place makes the tree grow. -/
lemma grows_set (h : t.entryAt? location = none) : Grows t (t.set location .directory) := by
  refine ⟨rfl, fun l => ?_⟩
  by_cases hl : l = location
  · rw [hl]
    exact .inr ⟨h, entryAt?_set_self t location .directory⟩
  · exact .inl (entryAt?_set_of_ne hl .directory)

/-- A directory is made where the path without its final slashes leads, if nothing lies there. -/
lemma exists_of_makeDirectory (h : t.makeDirectory path = .made t') :
    ∃ location, Path.isUsable path = true ∧ t.locate? (dropFinalSlashes path) = some location ∧
      t.entryAt? location = none ∧ t' = t.set location .directory := by
  unfold makeDirectory at h
  dsimp only at h
  split at h
  case isTrue => cases h
  case isFalse husable =>
    rw [Bool.not_eq_true, Bool.not_eq_false'] at husable
    split at h
    case h_1 => split_ifs at h
    case h_2 place hplace =>
      split at h
      case h_1 => cases h
      case h_2 hnone =>
        split at h
        · cases h
          exact ⟨place, husable, hplace, hnone, rfl⟩
        · cases h

/-- Making one directory adds nothing but that directory. -/
lemma grows_of_makeDirectory (h : t.makeDirectory path = .made t') : Grows t t' := by
  obtain ⟨place, -, -, hnone, rfl⟩ := exists_of_makeDirectory h
  exact grows_set hnone

/-- Making nested directories takes nothing away, however far it gets. -/
lemma grows_makeNested (t : FileTree) (paths : List String) : Grows t (t.makeNested paths).2 := by
  induction paths generalizing t with
  | nil => exact .refl t
  | cons path outer ih =>
    unfold makeNested
    split
    case h_1 t₁ hmade => exact grows_of_makeDirectory hmade
    case h_2 =>
      -- The path is tried a second time, in the tree with the directories around it.
      have houter := ih t
      split
      case h_1 t₁ hfailed =>
        rw [hfailed] at houter
        exact houter
      case h_2 t₁ hready =>
        rw [hready] at houter
        split
        case h_1 t₂ hmade => exact houter.trans (grows_of_makeDirectory hmade)
        case h_2 => exact houter
    case h_3 => exact .refl t

/-- Making a directory with those around it lets the tree grow, whether or not it succeeds. -/
lemma grows_of_makeDirectories {made : Bool} (h : t.makeDirectories path = (made, t')) :
    Grows t t' := by
  unfold makeDirectories at h
  split at h
  · cases h
    exact .refl t
  · have hnested := grows_makeNested t (Path.ancestors path)
    rwa [h] at hnested

/-! ### Writing files -/

/-- A file is written at the location of its path, where no directory lies. -/
lemma write_eq_true_iff {content : ByteArray} :
    t.write path content = (true, t') ↔
      ∃ location, t.locate? path = some location ∧ namesEntry path = true ∧
        t.hasDirectory location = false ∧ t' = t.set location (.file content) := by
  unfold write
  cases hlocate : t.locate? path with
  | none => simp
  | some location =>
    dsimp only
    -- the location is unique, so the one of the statement is the one that was found
    split_ifs with hfits
    · rw [Bool.and_eq_true, Bool.not_eq_true'] at hfits
      constructor
      · rintro ⟨⟩
        exact ⟨location, rfl, hfits.1, hfits.2, rfl⟩
      · rintro ⟨_, hplace, -, -, rfl⟩
        cases hplace
        rfl
    · rw [Bool.and_eq_true, Bool.not_eq_true'] at hfits
      simp only [Prod.mk.injEq, Bool.false_eq_true, false_and, false_iff]
      rintro ⟨_, hplace, hnames, hdirectory, -⟩
      cases hplace
      exact hfits ⟨hnames, hdirectory⟩

variable (hplace : t.hasDirectory location = false)
include hplace

/-- A file in place of no directory leaves the directories as they are. -/
lemma hasDirectory_set {content : ByteArray} (l : List String) :
    (t.set location (.file content)).hasDirectory l = t.hasDirectory l := by
  by_cases hl : l = location
  · rw [hl, hplace, FileTree.hasDirectory, entryAt?_set_self]
    rfl
  · rw [FileTree.hasDirectory, entryAt?_set_of_ne hl, FileTree.hasDirectory]

/-- A file in place of no directory stops no step. -/
lemma step?_set {content : ByteArray} (l : List String) (part : String) :
    (t.set location (.file content)).step? l part = t.step? l part := by
  unfold FileTree.step?
  rw [hasDirectory_set hplace]

/-- A file in place of no directory stops no sequence of steps. -/
lemma follow?_set {content : ByteArray} (l : List String) (parts : List String) :
    (t.set location (.file content)).follow? l parts = t.follow? l parts := by
  induction parts generalizing l with
  | nil => rfl
  | cons part parts ih =>
    unfold FileTree.follow?
    rw [step?_set hplace]
    cases t.step? l part with
    | none => rfl
    | some next => exact ih next

/-- A file in place of no directory lies on no way, so all paths lead where they led before. -/
lemma locate?_set {content : ByteArray} (path : String) :
    (t.set location (.file content)).locate? path = t.locate? path := by
  unfold FileTree.locate?
  rw [follow?_set hplace]
  rfl

omit hplace

/-- What was written can be read back. -/
lemma content?_of_write {content : ByteArray} (h : t.write path content = (true, t')) :
    t'.content? path = some content := by
  obtain ⟨location, hlocate, -, hplace, rfl⟩ := write_eq_true_iff.mp h
  rw [← locate?_set hplace] at hlocate
  exact content?_of_locate? hlocate (entryAt?_set_self t location _)

/-- Something lies where a file has a content. -/
lemma pathExists_of_content? {content : ByteArray} (h : t.content? path = some content) :
    t.pathExists path = true := by
  unfold FileTree.content? at h
  split at h
  case h_1 hfile => rw [pathExists, hfile, Option.isSome_some]
  case h_2 => cases h

/-! ### Where a file can be written -/

/-- Makes the directories around a path. -/
def makeAround (t : FileTree) (path : String) : Bool × FileTree :=
  Disk.willing.makeAround t path

/-- The directories around a path are those on the way to the directory that holds it. -/
lemma makeAround_of_parent? {dir : String} (h : Path.parent? path = some dir) :
    t.makeAround path = t.makeDirectories dir := by
  rw [makeAround, Disk.makeAround, h]
  rfl

/-- Making the directories around a path lets the tree grow, whether or not it succeeds. -/
lemma grows_of_makeAround {made : Bool} (h : t.makeAround path = (made, t')) : Grows t t' := by
  unfold makeAround Disk.makeAround at h
  split at h
  · exact grows_of_makeDirectories h
  · cases h
    exact .refl t

/-- A path is writable if the directories around it are there or can be made, and a file can be
written there then, whatever its content is. -/
def Writable (t : FileTree) (path : String) : Prop :=
  ∃ ready, t.makeAround path = (true, ready) ∧
    ∀ content, ∃ written, ready.write path content = (true, written)

end EdnTokens.FileTree
