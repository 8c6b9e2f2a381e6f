import EdnTokens.Files.Path
import EdnTokens.Text.Basic

/-!
# File trees

A file tree assigns to each location, a list of names from the root, what lies there. Paths are
resolved part by part from the working directory: every part but the last must be a directory, a
dot or an empty part stays where it is, and two dots go back to the directory above. A name that is
too long leads nowhere.

Operations that change the tree return the tree they leave behind also when they fail, since a
directory made on the way stays. They fail where the tree gives a reason. A disk (`Disk`) may have
other reasons to refuse a change, such as a lack of room.
-/

namespace EdnTokens

/-- What lies at a location. -/
inductive FileEntry
  | directory
  | file (content : ByteArray)

instance : DecidableEq FileEntry
  | .directory, .directory => isTrue rfl
  | .directory, .file _ => isFalse nofun
  | .file _, .directory => isFalse nofun
  | .file a, .file b =>
    match ByteArray.decEq a b with
    | isTrue h => isTrue (congrArg FileEntry.file h)
    | isFalse h => isFalse fun he => h (FileEntry.file.inj he)

/-- Files and directories by location, and the working directory. -/
structure FileTree where
  entryAt? : List String → Option FileEntry
  workingDirectory : List String := []

namespace FileTree

/-- The tree that holds only the working directory and the directories above it. -/
def empty (workingDirectory : List String) : FileTree where
  entryAt? location :=
    if location.isPrefixOf workingDirectory then some .directory else none
  workingDirectory

/-- Whether a directory lies at a location. -/
def hasDirectory (t : FileTree) (location : List String) : Bool :=
  t.entryAt? location == some .directory

/-- The tree with `entry` at `location`. -/
def set (t : FileTree) (location : List String) (entry : FileEntry) : FileTree :=
  { t with entryAt? := fun l => if l = location then some entry else t.entryAt? l }

/-! ### Resolving paths -/

/-- The location that one more part leads to, from a location that must be a directory. -/
def step? (t : FileTree) (location : List String) (part : String) : Option (List String) :=
  if !t.hasDirectory location then none
  else if Path.isIdle part then some location
  else if part == ".." then some location.dropLast
  else if Path.nameLimit < part.utf8ByteSize then none
  else some (location ++ [part])

/-- The location that parts lead to. The last one need not exist. -/
def follow? (t : FileTree) (location : List String) : List String → Option (List String)
  | [] => some location
  | part :: parts =>
    match t.step? location part with
    | none => none
    | some next => t.follow? next parts

/-- The location of a path, whether or not something lies there. The directory that would hold it
must exist. The empty path has no location, and neither has one that cannot be looked up. -/
def locate? (t : FileTree) (path : String) : Option (List String) :=
  if path = "" ∨ !Path.isUsable path then none
  else t.follow? (if Path.isAbsolute path then [] else t.workingDirectory) (Path.parts path)

/-- What lies at a path. -/
def entry? (t : FileTree) (path : String) : Option FileEntry :=
  (t.locate? path).bind t.entryAt?

/-- Whether something lies at a path. -/
def pathExists (t : FileTree) (path : String) : Bool :=
  (t.entry? path).isSome

/-- Whether a directory lies at a path. -/
def isDirectory (t : FileTree) (path : String) : Bool :=
  t.entry? path == some .directory

/-- The content of the file at a path. -/
def content? (t : FileTree) (path : String) : Option ByteArray :=
  match t.entry? path with
  | some (.file content) => some content
  | _ => none

/-- The text of the file at a path, if its content is well-formed. -/
def text? (t : FileTree) (path : String) : Option Text :=
  (t.content? path).bind Text.ofBytes?

/-! ### Changing the tree -/

/-- How an attempt to make a directory can end. -/
inductive Made
  /-- It was made. -/
  | made (t : FileTree)
  /-- Something lies at its path already. -/
  | occupied
  /-- A directory on the way is missing. -/
  | missing
  /-- A file lies on the way, or a name or the path is none. -/
  | blocked

/-- Why the end of a path cannot be reached from a location: whether there is something at the place
where the way ends, a file or a directory in which the next name is too long. -/
def blockedBy (t : FileTree) (location : List String) : List String → Bool
  | [] => false
  | part :: parts =>
    match t.step? location part with
    | none => (t.entryAt? location).isSome
    | some next => t.blockedBy next parts

/-- Whether the last part of a path names something new, not the directory it stands behind. -/
def namesEntry (path : String) : Bool :=
  match (Path.parts path).getLast? with
  | none => false
  | some last => !Path.isIdle last && last != ".."

/-- A path without the slashes at its end. -/
def dropFinalSlashes (path : String) : String :=
  let shorter := Text.dropTrailing '/' path.toList
  if shorter = [] then path else String.ofList shorter

/-- Makes one directory. A slash at the end of the path makes no difference here. -/
def makeDirectory (t : FileTree) (path : String) : Made :=
  let shorter := dropFinalSlashes path
  let origin := if Path.isAbsolute path then [] else t.workingDirectory
  if !Path.isUsable path then .blocked
  else
    match t.locate? shorter with
    | none => if t.blockedBy origin (Path.parts shorter) then .blocked else .missing
    | some location =>
      match t.entryAt? location with
      | some _ => .occupied
      | none => if namesEntry shorter then .made (t.set location .directory) else .missing

/-- Makes the directories of a list of nested paths, the outermost last in the list. Directories
that exist already are left alone. -/
def makeNested (t : FileTree) : List String → Bool × FileTree
  | [] => (true, t)
  | path :: outer =>
    match t.makeDirectory path with
    | .made t => (true, t)
    | .missing =>
      match t.makeNested outer with
      | (false, t) => (false, t)
      | (true, t) =>
        match t.makeDirectory path with
        | .made t => (true, t)
        | _ => (t.isDirectory path, t)
    | _ => (t.isDirectory path, t)

/-- Makes a directory and the directories around it that are missing. The empty path stands for the
working directory, which is there. -/
def makeDirectories (t : FileTree) (path : String) : Bool × FileTree :=
  if path = "" then (true, t) else t.makeNested (Path.ancestors path)

/-- Writes a file, replacing its content if it exists. The directory that holds it must exist, and
no directory may lie at its path. -/
def write (t : FileTree) (path : String) (content : ByteArray) : Bool × FileTree :=
  match t.locate? path with
  | none => (false, t)
  | some location =>
    if namesEntry path && !t.hasDirectory location then (true, t.set location (.file content))
    else (false, t)

end FileTree

/-! ### Disks -/

/-- What becomes of attempts to make a directory with those around it, and to write a file. A disk
may refuse what could be done to the tree alone. -/
structure Disk where
  makeDirectories : FileTree → String → Bool × FileTree
  write : FileTree → String → ByteArray → Bool × FileTree

namespace Disk

/-- The disk that refuses nothing that can be done to a file tree. -/
def willing : Disk where
  makeDirectories := FileTree.makeDirectories
  write := FileTree.write

/-- Makes the directories around a path. -/
def makeAround (disk : Disk) (t : FileTree) (path : String) : Bool × FileTree :=
  match Path.parent? path with
  | some dir => disk.makeDirectories t dir
  | none => (true, t)

end Disk

end EdnTokens
