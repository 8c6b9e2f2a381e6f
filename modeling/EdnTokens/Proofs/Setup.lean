import EdnTokens.CommandLine.Run
import EdnTokens.Proofs.Configuration

/-!
# Replacing a configuration on demand

Setting up a configuration in the working directory on demand does not look at the configuration
file that it replaces (`Init.run_of_replaceable`). The program does, though: it reads its
configuration before any command, and finds that very file first (`Config.find_of_file`). So the
command gets its turn only if the old content can be read. Otherwise the run fails and leaves the
file as it is (`CommandLine.run_init_force`).
-/

namespace EdnTokens

/-! ### The working directory -/

namespace FileTree

variable {t : FileTree} {bytes : ByteArray}

/-- A path that does not begin at the root is followed from the working directory. -/
lemma locate?_relative {path : String} (hempty : path ≠ "") (husable : Path.isUsable path = true)
    (hrelative : Path.isAbsolute path = false) :
    t.locate? path = t.follow? t.workingDirectory (Path.parts path) := by
  have hbad : ¬ (path = "" ∨ !Path.isUsable path) := by simp [hempty, husable]
  rw [FileTree.locate?, if_neg hbad, hrelative]
  rfl

/-- A dot in front of other parts leads nowhere. -/
lemma follow?_dot_cons (location : List String) (part : String) (parts : List String) :
    t.follow? location ("." :: part :: parts) = t.follow? location (part :: parts) := by
  cases h : t.hasDirectory location with
  | false => simp only [FileTree.follow?, step?_of_no_directory h]
  | true => rw [FileTree.follow?, step?_of_isIdle h (by decide)]

/-- The configuration file of the working directory has two paths. -/
lemma locate?_dot_fileName (t : FileTree) :
    t.locate? "./ednt.toml" = t.locate? Config.fileName := by
  rw [locate?_relative (by decide) (by decide) (by decide),
    locate?_relative (by decide) (by decide) (by decide)]
  exact follow?_dot_cons t.workingDirectory "ednt.toml" []

/-- Both paths of the configuration file have the same content. -/
lemma content?_dot_fileName (t : FileTree) :
    t.content? "./ednt.toml" = t.content? Config.fileName := by
  rw [FileTree.content?, FileTree.content?, FileTree.entry?, FileTree.entry?,
    locate?_dot_fileName]

/-- A dot stands for the working directory, if that is there. -/
lemma locate?_dot (h : t.hasDirectory t.workingDirectory = true) :
    t.locate? "." = some t.workingDirectory := by
  rw [locate?_relative (by decide) (by decide) (by decide)]
  change t.follow? t.workingDirectory ["."] = _
  rw [FileTree.follow?, step?_of_isIdle h (by decide)]
  rfl

/-- Making the working directory changes nothing. -/
lemma makeDirectories_dot (h : t.hasDirectory t.workingDirectory = true) :
    t.makeDirectories "." = (true, t) := by
  have hentry : t.entryAt? t.workingDirectory = some .directory := beq_iff_eq.mp h
  have hshorter : dropFinalSlashes "." = "." := by decide
  have husable : Path.isUsable "." = true := by decide
  have hoccupied : t.makeDirectory "." = .occupied := by
    simp [makeDirectory, hshorter, husable, locate?_dot h, hentry]
  have hdirectory : t.isDirectory "." = true := by
    rw [FileTree.isDirectory, FileTree.entry?, locate?_dot h]
    exact h
  have hancestors : Path.ancestors "." = ["."] := by decide
  simp [makeDirectories, hancestors, makeNested, hoccupied, hdirectory]

variable (h : t.entry? Config.fileName = some (.file bytes))
include h

/-- A file in the working directory shows that this directory is there. -/
lemma hasDirectory_workingDirectory : t.hasDirectory t.workingDirectory = true := by
  obtain ⟨location, hlocate, -⟩ := Option.bind_eq_some_iff.mp h
  rw [locate?_relative (by decide) (by decide) (by decide)] at hlocate
  change t.follow? t.workingDirectory ["ednt.toml"] = some location at hlocate
  by_contra hnot
  rw [FileTree.follow?, step?_of_no_directory (Bool.eq_false_iff.mpr hnot)] at hlocate
  cases hlocate

/-- A configuration file that is there already can be replaced. -/
lemma writable_dot_fileName : t.Writable "./ednt.toml" := by
  have hparent : Path.parent? "./ednt.toml" = some "." := by decide
  have hready : t.makeAround "./ednt.toml" = (true, t) := by
    rw [makeAround_of_parent? hparent]
    exact makeDirectories_dot (hasDirectory_workingDirectory h)
  obtain ⟨location, hlocate, hlies⟩ := Option.bind_eq_some_iff.mp h
  have hplace : t.hasDirectory location = false := by
    rw [FileTree.hasDirectory, hlies]
    rfl
  refine ⟨t, hready, fun content => ⟨t.set location (.file content), ?_⟩⟩
  refine write_eq_true_iff.mpr ⟨location, ?_, by decide, hplace, rfl⟩
  rw [locate?_dot_fileName, hlocate]

end FileTree

/-! ### The command -/

/-- A set-up on demand in the working directory replaces the configuration file there, whatever its
content is, by the default settings. -/
lemma Init.run_of_replaceable (i : Init) {t : FileTree} {bytes : ByteArray} {processors : Nat}
    (hpath : i.path = none) (hforce : i.force = true)
    (hfile : t.entry? Config.fileName = some (.file bytes))
    (hprocessors : processors < Toml.integerLimit) :
    ∃ t' notices, i.run processors t = ⟨.ok "./ednt.toml", notices, t'⟩ ∧
      Config.load t' Config.fileName = .ok (Config.settle {} processors) := by
  have htarget : i.target = "." := by rw [target, hpath, Option.getD_none]
  have hconfigPath : i.configPath = "./ednt.toml" := by
    rw [configPath, htarget]
    decide
  have hlocate : t.locate? "." = some t.workingDirectory :=
    FileTree.locate?_dot (FileTree.hasDirectory_workingDirectory hfile)
  -- the directory is there, since a file in it is
  have hdirectory : t.isDirectory i.target = true := by
    rw [htarget, FileTree.isDirectory, FileTree.entry?, hlocate]
    exact FileTree.hasDirectory_workingDirectory hfile
  have hprepare : i.prepareOn .willing t = (.ok [], t) :=
    prepareOn_of_isDirectory .willing hdirectory
  have hworkers : ({} : Config).workers processors < Toml.integerLimit :=
    Nat.max_lt.mpr ⟨by decide, hprocessors⟩
  obtain ⟨t', hsave, hcontent⟩ :=
    Config.exists_save_eq_ok (FileTree.writable_dot_fileName hfile) hworkers
  refine ⟨t', [] ++ i.created "file" "./ednt.toml", ?_, ?_⟩
  · rw [Config.save] at hsave
    simp only [run, runOn, hprepare, hforce, hconfigPath, hsave, Bool.not_true, Bool.and_false,
      Bool.false_eq_true, if_false]
  · rw [FileTree.content?_dot_fileName] at hcontent
    exact Config.load_of_default hcontent hworkers

/-! ### The configuration of a run -/

namespace Config

variable {env : Environment} {t : FileTree} {bytes : ByteArray}

/-- The configuration file of the working directory goes before all others. -/
lemma find_of_file (h : t.entry? fileName = some (.file bytes)) :
    find env t none = load t fileName := by
  have hexists : t.pathExists fileName = true := by rw [FileTree.pathExists, h, Option.isSome_some]
  have hfirst : (candidates env).find? t.pathExists = some fileName := by
    simp [candidates, hexists]
  simp only [find, hfirst]

/-- The settings that the content of a file stands for. -/
def Reads (bytes : ByteArray) (c : Config) : Prop :=
  ∃ t, Text.ofBytes? bytes = some t ∧ parse t = .ok c

/-- Loading the file in the working directory gives the settings that its content stands for. -/
lemma load_eq_ok_iff (h : t.entry? fileName = some (.file bytes)) {c : Config} :
    load t fileName = .ok c ↔ Reads bytes c := by
  have hexists : t.pathExists fileName = true := by rw [FileTree.pathExists, h, Option.isSome_some]
  have htext : t.text? fileName = Text.ofBytes? bytes := by
    rw [FileTree.text?, FileTree.content?, h, Option.bind_some]
  simp only [load, hexists, htext, Reads, Bool.not_true, Bool.false_eq_true, if_false]
  cases Text.ofBytes? bytes with
  | none => simp
  | some text => simp

end Config

namespace CommandLine

/-- A shared flag that is not given before the command is settled if its variable makes sense. -/
lemma exists_sharedFlag?_eq {env : Environment} {key : String} (name : OptionName)
    (outer inner : Given) (houter : outer.has name = false)
    (h : ∀ value, env.valueOf? key = some value → value = "true" ∨ value = "false") :
    ∃ b, sharedFlag? env key name outer inner = some b := by
  unfold sharedFlag?
  rw [houter, Bool.false_and, Bool.false_or, if_neg Bool.false_ne_true]
  cases hvalue : env.valueOf? key with
  | none => exact ⟨_, rfl⟩
  | some value =>
    rcases h value hvalue with rfl | rfl
    · exact ⟨_, rfl⟩
    · exact ⟨_, rfl⟩

/-- The arguments ask for a set-up on demand in the working directory, with the configuration that
is found. -/
lemma ofArguments_init_force {env : Environment} (hconfig : env.valueOf? "EDNT_CONFIG" = none)
    (hflags : ∀ key ∈ ["EDNT_VERBOSE", "EDNT_NO_COLOR"], ∀ value,
      env.valueOf? key = some value → value = "true" ∨ value = "false") :
    ∃ verbose noColor, Request.ofArguments env ["init", "--force"] =
      .run ⟨verbose, none, noColor, .init none true⟩ := by
  let inner : Given := { options := [(.force, "")] }
  have houter : outerGrammar.read {} .nothing ["init", "--force"] =
      .ok { given := {}, command := some ("init", ["--force"]) } := by decide
  have hinner : (innerGrammar "init").read {} .nothing ["--force"] = .ok { given := inner } := by
    decide
  have hcommand : command? "init" inner = some (.init none true) := by decide
  obtain ⟨verbose, hverbose⟩ := exists_sharedFlag?_eq .verbose {} inner rfl
    (hflags "EDNT_VERBOSE" (by decide))
  obtain ⟨noColor, hnoColor⟩ := exists_sharedFlag?_eq .noColor {} inner rfl
    (hflags "EDNT_NO_COLOR" (by decide))
  have hshared : sharedConfig? env {} inner = some none := by
    simp [sharedConfig?, hconfig, inner, Given.value?, Given.has]
  refine ⟨verbose, noColor, ?_⟩
  rw [Request.ofArguments, houter]
  change Request.ofCommand env { given := {}, command := some ("init", ["--force"]) } "init"
    ["--force"] = _
  have hsettle : (outerGrammar.settle {} .nothing).toOption = some {} := rfl
  simp only [Request.ofCommand, hinner, hcommand, hsettle, hverbose, hnoColor, hshared,
    Option.bind_eq_bind, Option.bind_some]
  rfl

/-- Running `init --force` in a directory with a configuration file, without another configuration
asked for: if the content of the file can be read as settings, the run succeeds and leaves the
default settings there; otherwise it fails and changes nothing. -/
theorem run_init_force (env : Environment) (tree : FileTree) (bytes : ByteArray)
    (hfile : tree.entry? Config.fileName = some (.file bytes))
    (hconfig : env.valueOf? "EDNT_CONFIG" = none)
    (hflags : ∀ key ∈ ["EDNT_VERBOSE", "EDNT_NO_COLOR"], ∀ value,
      env.valueOf? key = some value → value = "true" ∨ value = "false")
    (hprocessors : env.processors < 2 ^ 63) :
    ((∃ c, Config.Reads bytes c) →
      (run env tree ["init", "--force"]).exitCode = 0 ∧
        Config.load (run env tree ["init", "--force"]).tree Config.fileName =
          .ok (Config.settle {} env.processors)) ∧
    ((¬ ∃ c, Config.Reads bytes c) →
      (run env tree ["init", "--force"]).exitCode = 1 ∧
        (run env tree ["init", "--force"]).tree = tree) := by
  obtain ⟨verbose, noColor, hrequest⟩ := ofArguments_init_force hconfig hflags
  have hrun : run env tree ["init", "--force"] =
      Invocation.run ⟨verbose, none, noColor, .init none true⟩ env tree := by
    rw [run, hrequest]
  -- the configuration is loaded before the command runs, so the old content decides
  constructor
  · rintro ⟨c, hc⟩
    obtain ⟨tree', notices, hinit, hload⟩ :=
      Init.run_of_replaceable { force := true, verbose } rfl rfl hfile hprocessors
    have hsuccess : run env tree ["init", "--force"] = .success tree' [] notices := by
      simp only [hrun, Invocation.run, Config.find_of_file hfile,
        (Config.load_eq_ok_iff hfile).mpr hc, Invocation.execute, hinit]
    rw [hsuccess]
    exact ⟨rfl, hload⟩
  · intro hnot
    cases hload : Config.load tree Config.fileName with
    | ok c => exact absurd ⟨c, (Config.load_eq_ok_iff hfile).mp hload⟩ hnot
    | error f =>
      have hfailure : run env tree ["init", "--force"] = .failure tree [] f := by
        simp only [hrun, Invocation.run, Config.find_of_file hfile, hload]
      rw [hfailure]
      exact ⟨rfl, rfl⟩

/-- A configuration file with settings of its own is replaced. -/
theorem run_init_force_readable :
    Config.Reads (Text.toBytes "jobs = 2\n".toList) { jobs := some 2 } ∧
      (run { valueOf? := fun _ => none, processors := 8 } ((FileTree.empty []).set ["ednt.toml"]
          (.file (Text.toBytes "jobs = 2\n".toList))) ["init", "--force"]).exitCode = 0 ∧
      Config.load (run { valueOf? := fun _ => none, processors := 8 }
          ((FileTree.empty []).set ["ednt.toml"] (.file (Text.toBytes "jobs = 2\n".toList)))
          ["init", "--force"]).tree Config.fileName = .ok { jobs := some 8 } := by
  have hreads : Config.Reads (Text.toBytes "jobs = 2\n".toList) { jobs := some 2 } :=
    ⟨_, Text.ofBytes?_toBytes _, by decide⟩
  refine ⟨hreads, (run_init_force { valueOf? := fun _ => none, processors := 8 }
    ((FileTree.empty []).set ["ednt.toml"] (.file (Text.toBytes "jobs = 2\n".toList))) _
    rfl rfl ?_ (by decide)).1 ⟨_, hreads⟩⟩
  intro _ _ _ hvalue
  cases hvalue

/-- A configuration file that is no document at all is not replaced: the run fails, the file keeps
its content and still cannot be loaded. -/
theorem run_init_force_malformed :
    FileTree.entry? ((FileTree.empty []).set ["ednt.toml"]
          (.file (Text.toBytes "bad toml".toList))) Config.fileName =
        some (.file (Text.toBytes "bad toml".toList)) ∧
      (run { valueOf? := fun _ => none } ((FileTree.empty []).set ["ednt.toml"]
          (.file (Text.toBytes "bad toml".toList))) ["init", "--force"]).exitCode = 1 ∧
      (run { valueOf? := fun _ => none } ((FileTree.empty []).set ["ednt.toml"]
          (.file (Text.toBytes "bad toml".toList))) ["init", "--force"]).tree.content?
        Config.fileName = some (Text.toBytes "bad toml".toList) ∧
      Config.load (run { valueOf? := fun _ => none } ((FileTree.empty []).set ["ednt.toml"]
          (.file (Text.toBytes "bad toml".toList))) ["init", "--force"]).tree
        Config.fileName = .error .configMalformed :=
  ⟨rfl, rfl, rfl, rfl⟩

end CommandLine

end EdnTokens
