import EdnTokens.Command.Init
import EdnTokens.Proofs.Configuration
import EdnTokens.Proofs.Directories

/-!
# Setting up without damage

Setting up a configuration makes directories and writes one file, and a file system may refuse
either. `FileSystem` leaves open when it does: an attempt that succeeds has the effect it has on a
file tree, and one that fails leaves all files as they are. Whatever the file system refuses, a run
is safe (`Init.Safe`): it replaces the configuration file only on demand, a run that fails changes
no file, and one that succeeds leaves the default settings in the one file that it names.

A sequence of runs is followed from tree to tree. Each of its runs is safe where it starts, and a
file that is there at the beginning keeps its content to the end, except where a run that was to
replace a configuration file has written its own (`Init.runs_damage_no_file`).

The step that needs care is the last one before writing. Whether there is a configuration file is
looked up before the directories around it are made for a second time, and these could lead its
path elsewhere. They do not, since the target is a directory by then, and so the path has its
location already (`Init.locate?_configPath_of_makeAround`).
-/

namespace EdnTokens

namespace FileTree

variable {t t' t'' : FileTree}

/-- Two trees with the same file at a location: it has the same content in both, or there is none
in either of them. -/
def SameFileAt (t t' : FileTree) (location : List String) : Prop :=
  ∀ content,
    t'.entryAt? location = some (.file content) ↔ t.entryAt? location = some (.file content)

/-- Two trees with the same files. -/
def SameFiles (t t' : FileTree) : Prop :=
  ∀ location, SameFileAt t t' location

/-- Every tree has the files that it has. -/
lemma SameFiles.refl (t : FileTree) : SameFiles t t :=
  fun _ _ => Iff.rfl

/-- What several changes leave alone stays as it is. -/
lemma SameFiles.trans (h : SameFiles t t') (h' : SameFiles t' t'') : SameFiles t t'' :=
  fun location content => (h' location content).trans (h location content)

/-- Directories that are added leave all files as they are. -/
lemma Grows.sameFiles (h : Grows t t') : SameFiles t t' := by
  intro location content
  rcases h.entryAt? location with hsame | ⟨hnone, hmade⟩
  · rw [hsame]
  · rw [hnone, hmade]
    simp

/-- What cannot be written changes nothing. -/
lemma eq_of_write_eq_false {path : String} {content : ByteArray}
    (h : t.write path content = (false, t')) : t' = t := by
  unfold write at h
  split at h
  case h_1 =>
    cases h
    rfl
  case h_2 =>
    split at h
    all_goals cases h
    rfl

end FileTree

/-- A disk that can be relied on. Attempts that succeed do what they do to a file tree; others may
fail for any reason, but leave all files as they are. -/
structure FileSystem extends Disk where
  made : ∀ {t path t'}, makeDirectories t path = (true, t') → t.makeDirectories path = (true, t')
  notMade : ∀ {t path t'}, makeDirectories t path = (false, t') → t.SameFiles t'
  written : ∀ {t path content t'},
    write t path content = (true, t') → t.write path content = (true, t')
  notWritten : ∀ {t path content t'}, write t path content = (false, t') → t.SameFiles t'

namespace FileSystem

instance : Coe FileSystem Disk where
  coe disk := disk.toDisk

/-- The file system that refuses nothing that can be done to a file tree. -/
def willing : FileSystem where
  toDisk := .willing
  made h := h
  notMade h := (FileTree.grows_of_makeDirectories h).sameFiles
  written h := h
  notWritten {t path content t'} h := by
    rw [FileTree.eq_of_write_eq_false h]
    exact .refl t

/-- The file system without room for another file. -/
def full : FileSystem where
  makeDirectories := FileTree.makeDirectories
  write t _ _ := (false, t)
  made h := h
  notMade h := willing.notMade h
  written h := by cases h
  notWritten h := by
    cases h
    exact .refl _

variable {disk : FileSystem} {t t' : FileTree} {path : String}

/-- Directories that were made around a path are those that are made in a file tree. -/
lemma makeAround_eq_true (h : disk.makeAround t path = (true, t')) :
    t.makeAround path = (true, t') := by
  unfold Disk.makeAround at h
  unfold FileTree.makeAround Disk.makeAround
  cases hparent : Path.parent? path with
  | none =>
    rw [hparent] at h
    exact h
  | some dir =>
    rw [hparent] at h
    exact disk.made h

/-- If not all directories around a path can be made, all files stay as they are. -/
lemma makeAround_eq_false (h : disk.makeAround t path = (false, t')) : t.SameFiles t' := by
  unfold Disk.makeAround at h
  split at h
  · exact disk.notMade h
  · cases h

end FileSystem

/-! ### Saving -/

namespace Config

variable {disk : FileSystem} {c : Config} {processors : Nat} {t t' : FileTree} {path : String}

/-- Settings that are not saved leave all files as they are, and are not found invalid. -/
lemma saveOn_eq_error {e : Failure} (h : c.saveOn disk processors t path = (.error e, t')) :
    t.SameFiles t' ∧ e.category ≠ .validation := by
  unfold saveOn at h
  split at h
  case h_1 t₁ hfailed =>
    cases h
    exact ⟨FileSystem.makeAround_eq_false hfailed, by decide⟩
  case h_2 t₁ hready =>
    have hsame := (FileTree.grows_of_makeAround (FileSystem.makeAround_eq_true hready)).sameFiles
    split at h
    case isTrue =>
      cases h
      exact ⟨hsame, by decide⟩
    case isFalse =>
      split at h
      case h_1 => cases h
      case h_2 t₂ hfailed =>
        cases h
        exact ⟨hsame.trans (disk.notWritten hfailed), by decide⟩

/-- What saving settings amounts to: a document that is written at a place in a tree with more
directories, where no directory lies. -/
lemma saveOn_eq_ok (h : c.saveOn disk processors t path = (.ok (), t')) :
    c.workers processors < Toml.integerLimit ∧
      ∃ ready place, t.makeAround path = (true, ready) ∧ ready.locate? path = some place ∧
        ready.hasDirectory place = false ∧
        t' = ready.set place (.file (Text.toBytes (c.render processors))) := by
  unfold saveOn at h
  split at h
  case h_1 => cases h
  case h_2 t₁ hready =>
    split at h
    case isTrue => cases h
    case isFalse hlimit =>
      split at h
      case h_1 t₂ hwritten =>
        cases h
        obtain ⟨place, hplace, -, hfree, rfl⟩ :=
          FileTree.write_eq_true_iff.mp (disk.written hwritten)
        exact ⟨Nat.not_le.mp hlimit, t₁, place, FileSystem.makeAround_eq_true hready, hplace,
          hfree, rfl⟩
      case h_2 => cases h

end Config

namespace Init

variable {disk : FileSystem} {i : Init} {processors : Nat} {t t' ready : FileTree}

/-- A target that cannot be prepared leaves all files as they are. -/
lemma prepareOn_eq_error {e : Failure} (h : i.prepareOn disk t = (.error e, t')) :
    t.SameFiles t' := by
  unfold prepareOn at h
  split at h
  case isTrue =>
    split at h
    case h_1 => cases h
    case h_2 t₁ hfailed =>
      cases h
      exact disk.notMade hfailed
  case isFalse =>
    split at h
    case isTrue => cases h
    case isFalse =>
      cases h
      exact .refl t

/-- A target that was prepared is a directory, unless it has the empty path. -/
lemma prepareOn_eq_ok {notices : List Notice} (h : i.prepareOn disk t = (.ok notices, t')) :
    t.Grows t' ∧ (i.target = "" ∨ t'.isDirectory i.target = true) := by
  unfold prepareOn at h
  split at h
  case isTrue =>
    split at h
    case h_1 t₁ hmade =>
      cases h
      have hmade := disk.made hmade
      refine ⟨FileTree.grows_of_makeDirectories hmade, ?_⟩
      by_cases hempty : i.target = ""
      · exact .inl hempty
      · exact .inr (FileTree.isDirectory_of_makeDirectories hempty hmade)
    case h_2 => cases h
  case isFalse =>
    split at h
    case isTrue hdirectory =>
      cases h
      exact ⟨.refl t, .inr hdirectory⟩
    case isFalse => cases h

/-- In a directory the name of the configuration file leads one step further. -/
lemma step?_fileName {location : List String} (h : t.hasDirectory location = true) :
    t.step? location Config.fileName = some (location ++ [Config.fileName]) := by
  have hidle : Path.isIdle Config.fileName = false := by decide
  have hup : (Config.fileName == "..") = false := by decide
  have hshort : ¬ Path.nameLimit < Config.fileName.utf8ByteSize := by decide
  simp [FileTree.step?, h, hidle, hup, hshort]

/-- The path of the configuration file in a directory has a location, if it is one at all. -/
lemma exists_locate?_configPath (h : t.isDirectory i.target = true)
    (husable : Path.isUsable i.configPath = true) :
    ∃ place, t.locate? i.configPath = some place := by
  have hentry : t.entry? i.target = some .directory := beq_iff_eq.mp h
  obtain ⟨location, htarget, hlies⟩ := Option.bind_eq_some_iff.mp hentry
  have hname : Path.parts Config.fileName = [Config.fileName] := by decide
  have hjoin := FileTree.locate?_join htarget hname husable
  have hdirectory : t.hasDirectory location = true := beq_iff_eq.mpr hlies
  exact ⟨_, hjoin.trans (step?_fileName hdirectory)⟩

/-- In a prepared target the directories made around the configuration file do not lead its path
elsewhere. -/
lemma locate?_configPath_of_makeAround {place : List String}
    (htarget : i.target = "" ∨ t.isDirectory i.target = true)
    (hready : t.makeAround i.configPath = (true, ready))
    (hplace : ready.locate? i.configPath = some place) : t.locate? i.configPath = some place := by
  rcases htarget with hempty | hdirectory
  · -- the configuration file lies in the working directory, which is not made
    have hpath : i.configPath = Config.fileName := by
      rw [configPath, hempty]
      rfl
    have hparent : Path.parent? Config.fileName = some "" := by decide
    have hunchanged : t.makeAround i.configPath = (true, t) := by
      rw [hpath, FileTree.makeAround_of_parent? hparent]
      exact if_pos rfl
    have hsame : t = ready := (Prod.mk.inj (hunchanged.symm.trans hready)).2
    rw [hsame]
    exact hplace
  · obtain ⟨-, husable, -⟩ := FileTree.locate?_eq_some_iff.mp hplace
    obtain ⟨before, hbefore⟩ := exists_locate?_configPath hdirectory husable
    have hafter := (FileTree.grows_of_makeAround hready).locate? hbefore
    rw [hbefore, ← hafter, hplace]

/-! ### One run -/

/-- The second tree has the files of the first one, and the default settings at the place to which
the path of the configuration file leads. On demand they may replace a file there. -/
structure Writes (i : Init) (processors : Nat) (t t' : FileTree) (place : List String) : Prop where
  located : t'.locate? i.configPath = some place
  written : t'.entryAt? place = some (.file (Text.toBytes (Config.render {} processors)))
  fresh : i.force = false → ∀ content, t.entryAt? place ≠ some (.file content)
  others : ∀ location, location ≠ place → t.SameFileAt t' location

/-- What is written in a prepared target, unless there is a configuration file that is to stay. -/
lemma writes_of_saveOn {prepared : FileTree} (hgrows : t.Grows prepared)
    (htarget : i.target = "" ∨ prepared.isDirectory i.target = true)
    (hfree : ¬ (prepared.pathExists i.configPath && !i.force) = true)
    (h : Config.saveOn disk {} processors prepared i.configPath = (.ok (), t')) :
    ∃ place, i.Writes processors t t' place := by
  obtain ⟨-, ready, place, hready, hplace, hdirectory, rfl⟩ := Config.saveOn_eq_ok h
  have hbefore := locate?_configPath_of_makeAround htarget hready hplace
  have hsame := (hgrows.trans (FileTree.grows_of_makeAround hready)).sameFiles
  refine ⟨place, ?_, FileTree.entryAt?_set_self _ _ _, ?_, ?_⟩
  · rw [FileTree.locate?_set hdirectory, hplace]
  · intro hforce content hcontent
    have hlies := hgrows.entryAt?_eq_some hcontent
    have hexists : prepared.pathExists i.configPath = true :=
      FileTree.pathExists_of_content? (FileTree.content?_of_locate? hbefore hlies)
    simp [hexists, hforce] at hfree
  · intro location hne content
    rw [FileTree.entryAt?_set_of_ne hne]
    exact hsame location content

/-- A run either fails and leaves all files as they are, or it writes the configuration file. -/
lemma runOn_cases (disk : FileSystem) (i : Init) (processors : Nat) (t : FileTree) :
    (∃ e, (i.runOn disk processors t).result = .error e ∧
      t.SameFiles (i.runOn disk processors t).tree) ∨
    (i.runOn disk processors t).result = .ok i.configPath ∧
      Config.workers {} processors < Toml.integerLimit ∧
      ∃ place, i.Writes processors t (i.runOn disk processors t).tree place := by
  unfold runOn
  split
  case h_1 e prepared hprepare => exact .inl ⟨e, rfl, prepareOn_eq_error hprepare⟩
  case h_2 notices prepared hprepare =>
    obtain ⟨hgrows, htarget⟩ := prepareOn_eq_ok hprepare
    split
    case isTrue => exact .inl ⟨_, rfl, hgrows.sameFiles⟩
    case isFalse hfree =>
      split
      case h_1 e t' hsave =>
        exact .inl ⟨e, rfl, hgrows.sameFiles.trans (Config.saveOn_eq_error hsave).1⟩
      case h_2 t' hsave =>
        exact .inr ⟨rfl, (Config.saveOn_eq_ok hsave).1,
          writes_of_saveOn hgrows htarget hfree hsave⟩

/-- A run on a target that exists finds its request invalid if and only if the target is no
directory, or has a configuration file that is not to be replaced. -/
lemma runOn_validation_iff (disk : FileSystem) (processors : Nat)
    (h : t.pathExists i.target = true) :
    (∃ e, (i.runOn disk processors t).result = .error e ∧ e.category = .validation) ↔
      t.isDirectory i.target = false ∨ t.pathExists i.configPath = true ∧ i.force = false := by
  cases hdirectory : t.isDirectory i.target with
  | false =>
    have hprepare : i.prepareOn disk t = (.error (.targetNotDirectory i.target), t) := by
      simp [prepareOn, h, hdirectory]
    rw [runOn, hprepare]
    exact iff_of_true ⟨_, rfl, rfl⟩ (.inl rfl)
  | true =>
    have hprepare : i.prepareOn disk t = (.ok [], t) := prepareOn_of_isDirectory disk hdirectory
    rw [runOn, hprepare]
    dsimp only
    split
    case isTrue hexists =>
      have hkept : t.pathExists i.configPath = true ∧ i.force = false := by simpa using hexists
      exact iff_of_true ⟨_, rfl, rfl⟩ (.inr hkept)
    case isFalse hfree =>
      have hnone : ¬ (true = false ∨ t.pathExists i.configPath = true ∧ i.force = false) := by
        simpa using hfree
      refine iff_of_false ?_ hnone
      -- what is left is to save, and no failure of that blames the request
      split
      case h_1 e t' hsave =>
        rintro ⟨_, ⟨⟩, hvalidation⟩
        exact (Config.saveOn_eq_error hsave).2 hvalidation
      case h_2 =>
        rintro ⟨_, ⟨⟩, _⟩

/-- What makes a run from one tree to its outcome safe. Without a demand to replace it no file
changes its content, and neither does any if the run fails. If it succeeds, it names the
configuration file in the target, the default settings are loaded from there, and no other file has
changed. On a target that exists it finds its request invalid exactly if there is a reason in that
tree. -/
structure Safe (i : Init) (processors : Nat) (before : FileTree) (o : Outcome) : Prop where
  keeps : i.force = false → ∀ location content,
    before.entryAt? location = some (.file content) →
    o.tree.entryAt? location = some (.file content)
  failed : ∀ e, o.result = .error e → before.SameFiles o.tree
  succeeded : ∀ path, o.result = .ok path →
    path = Path.join i.target Config.fileName ∧
    Config.load o.tree path = .ok (Config.settle {} processors) ∧
    ∃ place, o.tree.locate? path = some place ∧
      ∀ location, location ≠ place → before.SameFileAt o.tree location
  validates : before.pathExists i.target = true →
    ((∃ e, o.result = .error e ∧ e.category = .validation) ↔
      before.isDirectory i.target = false ∨
        before.pathExists i.configPath = true ∧ i.force = false)

/-- The default settings that were written are loaded again, with the number of workers fixed. -/
lemma Writes.load {place : List String} (h : i.Writes processors t t' place)
    (hlimit : Config.workers {} processors < Toml.integerLimit) :
    Config.load t' i.configPath = .ok (Config.settle {} processors) :=
  Config.load_of_default (FileTree.content?_of_locate? h.located h.written) hlimit

/-- Whatever the file system refuses, a run is safe. -/
lemma safe_runOn (disk : FileSystem) (i : Init) (processors : Nat) (t : FileTree) :
    i.Safe processors t (i.runOn disk processors t) := by
  have hvalidates := runOn_validation_iff (i := i) (t := t) disk processors
  rcases runOn_cases disk i processors t with ⟨e, he, hsame⟩ | ⟨hok, hlimit, place, hwrites⟩
  · refine ⟨?_, fun _ _ => hsame, ?_, hvalidates⟩
    · intro _ location content hcontent
      exact (hsame location content).mpr hcontent
    · intro path hpath
      rw [he] at hpath
      cases hpath
  · refine ⟨?_, ?_, ?_, hvalidates⟩
    · -- without a demand no file lay where the configuration is written, so a file that was there
      -- lies elsewhere
      intro hforce location content hcontent
      have hne : location ≠ place := by
        rintro rfl
        exact hwrites.fresh hforce content hcontent
      exact (hwrites.others location hne content).mpr hcontent
    · intro e he
      rw [hok] at he
      cases he
    · intro path hpath
      obtain rfl : i.configPath = path := Except.ok.inj (hok.symm.trans hpath)
      exact ⟨rfl, hwrites.load hlimit, place, hwrites.located, hwrites.others⟩

/-! ### Sequences of runs -/

/-- One run in a sequence: what is asked for, on which file system, and the number of processors
that it finds. -/
structure Call where
  init : Init
  disk : FileSystem
  processors : Nat

/-- What a run comes to. -/
def Call.outcome (call : Call) (t : FileTree) : Outcome :=
  call.init.runOn call.disk call.processors t

/-- The tree that a sequence of runs leaves. -/
def after (t : FileTree) (calls : List Call) : FileTree :=
  calls.foldl (fun t call => (call.outcome t).tree) t

/-- A file keeps its content in a run, unless the run was to replace it and has succeeded. -/
lemma Safe.file_kept_or_replaced {before : FileTree} {o : Outcome}
    (h : i.Safe processors before o) {location : List String} {content : ByteArray}
    (hfile : before.entryAt? location = some (.file content)) :
    o.tree.entryAt? location = some (.file content) ∨
      i.force = true ∧ o.result = .ok i.configPath ∧
        o.tree.locate? i.configPath = some location := by
  cases hforce : i.force with
  | false => exact .inl (h.keeps hforce location content hfile)
  | true =>
    cases hresult : o.result with
    | error e => exact .inl ((h.failed e hresult location content).mpr hfile)
    | ok path =>
      obtain ⟨rfl, -, place, hplace, hothers⟩ := h.succeeded path hresult
      by_cases hlocation : location = place
      · rw [hlocation]
        exact .inr ⟨rfl, rfl, hplace⟩
      · exact .inl ((hothers location hlocation content).mpr hfile)

/-- A file keeps its content in a sequence of runs, unless one of them was to replace it and has
succeeded. -/
lemma file_kept_or_replaced_after (calls : List Call) (t : FileTree) {location : List String}
    {content : ByteArray} (hfile : t.entryAt? location = some (.file content)) :
    (after t calls).entryAt? location = some (.file content) ∨
      ∃ done call rest, calls = done ++ call :: rest ∧ call.init.force = true ∧
        (call.outcome (after t done)).result = .ok call.init.configPath ∧
        (after t (done ++ [call])).locate? call.init.configPath = some location := by
  induction calls generalizing t with
  | nil => exact .inl hfile
  | cons call calls ih =>
    have hsafe : call.init.Safe call.processors t (call.outcome t) := safe_runOn _ _ _ _
    rcases hsafe.file_kept_or_replaced hfile with hkept | hreplaced
    · rcases ih _ hkept with hlast | ⟨done, later, rest, rfl, hlater⟩
      · exact .inl hlast
      · exact .inr ⟨call :: done, later, rest, rfl, hlater⟩
    · exact .inr ⟨[], call, calls, rfl, hreplaced⟩

/-- Setting up configurations damages no file, from every tree, in every sequence of runs and
whatever the file systems refuse. Every run is safe in the tree in which it starts. Over the whole
sequence a file keeps its content, unless a run that was to replace configuration files has written
the one that its path led to. On a file system that refuses nothing these are the runs of the
program. -/
theorem runs_damage_no_file (t : FileTree) (calls : List Call) :
    (∀ done call rest, calls = done ++ call :: rest →
      call.init.Safe call.processors (after t done) (call.outcome (after t done))) ∧
    (∀ location content, t.entryAt? location = some (.file content) →
      (after t calls).entryAt? location = some (.file content) ∨
        ∃ done call rest, calls = done ++ call :: rest ∧ call.init.force = true ∧
          (call.outcome (after t done)).result = .ok call.init.configPath ∧
          (after t (done ++ [call])).locate? call.init.configPath = some location) ∧
    ∀ i processors before, (Call.mk i .willing processors).outcome before =
      i.run processors before := by
  refine ⟨?_, ?_, ?_⟩
  · intro done call _ _
    exact safe_runOn call.disk call.init call.processors (after t done)
  · intro location content hfile
    exact file_kept_or_replaced_after calls t hfile
  · intro _ _ _
    rfl

/-- A set-up, and a second one on demand for which the file system has no room. The first one leaves
the default settings, the second one fails and changes no file. The file beside them keeps its
content throughout. -/
theorem runs_damage_no_file_without_room :
    let t := (FileTree.empty []).set ["a.edn"] (.file (Text.toBytes "1".toList))
    let calls : List Call := [⟨{}, .willing, 4⟩, ⟨{ force := true }, .full, 4⟩]
    Config.load (after t (calls.take 1)) "./ednt.toml" = .ok { jobs := some 4 } ∧
      (after t (calls.take 1)).SameFiles (after t calls) ∧
      (after t calls).entryAt? ["a.edn"] = some (.file (Text.toBytes "1".toList)) := by
  intro t calls
  obtain ⟨hsafe, hkept, -⟩ := runs_damage_no_file t calls
  have hfirst := hsafe [] ⟨{}, .willing, 4⟩ [⟨{ force := true }, .full, 4⟩] rfl
  have hsecond := hsafe [⟨{}, .willing, 4⟩] ⟨{ force := true }, .full, 4⟩ [] rfl
  refine ⟨?_, ?_, ?_⟩
  · exact (hfirst.succeeded "./ednt.toml" rfl).2.1
  · exact hsecond.failed .fileSystem rfl
  · rcases hkept ["a.edn"] _ rfl with hlast | ⟨done, call, rest, hcalls, hforce, hresult, -⟩
    · exact hlast
    · rcases List.append_eq_cons_iff.mp hcalls.symm with ⟨rfl, hhere⟩ | ⟨done, rfl, hlater⟩
      · obtain ⟨rfl, -⟩ := List.cons.inj hhere
        cases hforce
      · rcases List.append_eq_cons_iff.mp hlater.symm with ⟨rfl, hhere⟩ | ⟨_, -, hnone⟩
        · obtain ⟨rfl, -⟩ := List.cons.inj hhere
          cases hresult
        · simp at hnone

end Init

end EdnTokens
