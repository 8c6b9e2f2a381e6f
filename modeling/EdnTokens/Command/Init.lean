import EdnTokens.Command.Config
import EdnTokens.Command.Notice

/-!
# Setting up a configuration

Writes a configuration file with the default settings into a directory, which is made if it does
not exist. A configuration file that is there already is replaced only on demand.
-/

namespace EdnTokens

/-- Where and how to set up a configuration. -/
structure Init where
  /-- The directory; without it the working directory is meant. -/
  path : Option String := none
  /-- Replace a configuration file that exists. -/
  force : Bool := false
  verbose : Bool := false
  deriving DecidableEq, Repr

namespace Init

/-- The result of a set-up: the path of the file written, what was told, and the tree it left. -/
structure Outcome where
  result : Except Failure String
  notices : List Notice
  tree : FileTree

/-- The directory to set up. -/
def target (i : Init) : String :=
  i.path.getD "."

/-- The path of the configuration file. -/
def configPath (i : Init) : String :=
  Path.join i.target Config.fileName

/-- A notice for verbose runs that something was made. -/
def created (i : Init) (what path : String) : List Notice :=
  if i.verbose then [.line ("✅ Created ".toList ++ what.toList ++ ": ".toList ++ path.toList)]
  else []

/-- Makes sure that the target is a directory of a disk. -/
def prepareOn (disk : Disk) (i : Init) (tree : FileTree) :
    Except Failure (List Notice) × FileTree :=
  if !tree.pathExists i.target then
    match disk.makeDirectories tree i.target with
    | (true, tree) => (.ok (i.created "directory" i.target), tree)
    | (false, tree) => (.error .fileSystem, tree)
  else if tree.isDirectory i.target then (.ok [], tree)
  else (.error (.targetNotDirectory i.target), tree)

/-- Where the target is a directory already, nothing is made. -/
theorem prepareOn_of_isDirectory (disk : Disk) {i : Init} {tree : FileTree}
    (h : tree.isDirectory i.target = true) : i.prepareOn disk tree = (.ok [], tree) := by
  have hentry : tree.entry? i.target = some .directory := beq_iff_eq.mp h
  have hexists : tree.pathExists i.target = true := by
    rw [FileTree.pathExists, hentry, Option.isSome_some]
  simp [prepareOn, hexists, h]

/-- Sets up the configuration on a disk. -/
def runOn (disk : Disk) (i : Init) (processors : Nat) (tree : FileTree) : Outcome :=
  match i.prepareOn disk tree with
  | (.error e, tree) => ⟨.error e, [], tree⟩
  | (.ok notices, tree) =>
    if tree.pathExists i.configPath && !i.force then
      ⟨.error (.configExists i.configPath), notices, tree⟩
    else
      match Config.saveOn disk {} processors tree i.configPath with
      | (.error e, tree) => ⟨.error e, notices, tree⟩
      | (.ok (), tree) => ⟨.ok i.configPath, notices ++ i.created "file" i.configPath, tree⟩

/-- Sets up the configuration, where only the files there can stand in the way. -/
def run (i : Init) (processors : Nat) (tree : FileTree) : Outcome :=
  i.runOn .willing processors tree

end Init

end EdnTokens
