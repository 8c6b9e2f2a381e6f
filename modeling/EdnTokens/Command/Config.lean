import EdnTokens.Command.Environment
import EdnTokens.Command.Failure
import EdnTokens.Files.Tree
import EdnTokens.Lexer.Session
import EdnTokens.Toml.Reader

/-!
# Configuration

The settings of the tool, how a document is read as settings, and how settings are written. A
document may set any of them; keys that mean nothing are left alone, but a setting of the wrong
type spoils the document.
-/

namespace EdnTokens

/-- How token listings are written. -/
inductive ListingFormat
  | text
  | json
  deriving DecidableEq, Repr

namespace ListingFormat

/-- The name of a format. -/
def name : ListingFormat → String
  | text => "text"
  | json => "json"

/-- The format with a name. -/
def ofName? (s : String) : Option ListingFormat :=
  [text, json].find? fun f => f.name == s

/-- The name of a format is that of no other. -/
theorem ofName?_name (f : ListingFormat) : ofName? f.name = some f := by
  cases f <;> rfl

end ListingFormat

/-- The settings of the tool. -/
structure Config where
  /-- Number of workers; without it there is one for each processor. -/
  jobs : Option Nat := none
  /-- Check the digits of character escapes. -/
  strictEscapes : Bool := false
  /-- Format of listings. -/
  format : ListingFormat := .text
  /-- List the end token as well. -/
  includeEof : Bool := false
  deriving DecidableEq, Repr

namespace Config

/-- The name of the configuration file. -/
def fileName : String := "ednt.toml"

/-- Number of workers on a machine. -/
def workers (c : Config) (processors : Nat) : Nat :=
  c.jobs.getD (max 1 processors)

/-- The settings with the number of workers fixed for a machine. -/
def settle (c : Config) (processors : Nat) : Config :=
  { c with jobs := some (c.workers processors) }

/-- Options for reading a text. Strict escapes can be asked for beside the configuration. -/
def options (c : Config) (strict : Bool) : Options :=
  { strictEscapes := strict || c.strictEscapes }

/-! ### Reading -/

/-- The values of the settings of a section. A section is a table, or an array that holds the
values in order; a date-time is a section without any settings. -/
def fields? (names : List Text) : Toml.Node → Option (List (Option Toml.Node))
  | .table origin entries => some (names.map (Toml.Table.mk origin entries).get?)
  | .array items | .tables items => some ((List.range names.length).map (items[·]?))
  | .dateTime => some (names.map fun _ => none)
  | _ => none

/-- A setting that is on or off; it is off unless it is set. -/
def flag? : Option Toml.Node → Option Bool
  | none => some false
  | some (.boolean b) => some b
  | some _ => none

/-- A number of workers, which may be left out. -/
def jobs? : Option Toml.Node → Option (Option Nat)
  | none => some none
  | some (.integer n) => if 0 ≤ n then some (some n.toNat) else none
  | some _ => none

/-- Whether a value has no parts. -/
def isEmptyNode : Toml.Node → Bool
  | .array [] | .table _ [] | .tables [] => true
  | _ => false

/-- A format: its name, or a table whose only key is that name and has an empty value. -/
def format? : Option Toml.Node → Option ListingFormat
  | none => some .text
  | some (.string s) => ListingFormat.ofName? (String.ofList s)
  | some (.table _ [(key, value)]) =>
    if isEmptyNode value then ListingFormat.ofName? (String.ofList key) else none
  | some _ => none

/-- Whether the lexer section asks for strict escapes. -/
def lexer? : Option Toml.Node → Option Bool
  | none => some false
  | some node =>
    match fields? ["strict_char_escapes".toList] node with
    | some [strict] => flag? strict
    | _ => none

/-- Format and end token of listings, from the output section. -/
def output? : Option Toml.Node → Option (ListingFormat × Bool)
  | none => some (.text, false)
  | some node =>
    match fields? ["format".toList, "include_eof".toList] node with
    | some [format, eof] => (format? format).bind fun f => (flag? eof).map fun b => (f, b)
    | _ => none

/-- The settings of a document. -/
def ofTable? (t : Toml.Table) : Option Config := do
  let jobs ← jobs? (t.get? "jobs".toList)
  let strictEscapes ← lexer? (t.get? "lexer".toList)
  let (format, includeEof) ← output? (t.get? "output".toList)
  return { jobs, strictEscapes, format, includeEof }

/-- Reads a configuration. -/
def parse (t : Text) : Except Failure Config :=
  match (Toml.parse t).bind ofTable? with
  | none => .error .configMalformed
  | some c => if c.jobs = some 0 then .error .jobsNotPositive else .ok c

/-- Reads the configuration file at a path. -/
def load (tree : FileTree) (path : String) : Except Failure Config :=
  if !tree.pathExists path then .error (.configNotFound path)
  else
    match tree.text? path with
    | none => .error .fileSystem
    | some t => parse t

/-! ### Where to look -/

/-- The user's home directory. -/
def home? (env : Environment) : Option String :=
  (env.valueOf? "HOME").filter (· != "")

/-- The directory of the user's configuration files. -/
def configHome? (env : Environment) : Option String :=
  match (env.valueOf? "XDG_CONFIG_HOME").filter Path.isAbsolute with
  | some dir => some dir
  | none => (home? env).map (Path.join · ".config")

/-- Where a configuration file may lie, in order of precedence: in the working directory, below the
home directory, and in the directory of the user's configuration files. -/
def candidates (env : Environment) : List String :=
  let inside (dir : String) : String := Path.join (Path.join dir "ednt") fileName
  [fileName] ++ ((home? env).map fun dir => inside (Path.join dir ".config")).toList ++
    ((configHome? env).map inside).toList

/-- The configuration of a run: the file that was asked for, or else the first that exists. -/
def find (env : Environment) (tree : FileTree) (path? : Option String) :
    Except Failure Config :=
  match path? with
  | some path => load tree path
  | none =>
    match (candidates env).find? tree.pathExists with
    | some path => load tree path
    | none => .ok {}

/-! ### Writing -/

/-- The text of a truth value. -/
def flagText (b : Bool) : Text :=
  (if b then "true" else "false").toList

/-- The document of some settings. -/
def render (c : Config) (processors : Nat) : Text :=
  Text.line ("jobs = ".toList ++ Text.ofNat (c.workers processors)) ++
    "\n[lexer]\n".toList ++
    Text.line ("strict_char_escapes = ".toList ++ flagText c.strictEscapes) ++
    "\n[output]\n".toList ++
    Text.line ("format = \"".toList ++ c.format.name.toList ++ "\"".toList) ++
    Text.line ("include_eof = ".toList ++ flagText c.includeEof)

/-- Writes the configuration file at a path of a disk, making the directories around it. The file is
written last, so that it keeps its content if anything fails before. -/
def saveOn (disk : Disk) (c : Config) (processors : Nat) (tree : FileTree) (path : String) :
    Except Failure Unit × FileTree :=
  match disk.makeAround tree path with
  | (false, tree) => (.error .fileSystem, tree)
  | (true, tree) =>
    if Toml.integerLimit ≤ c.workers processors then (.error .jobsOutOfRange, tree)
    else
      match disk.write tree path (Text.toBytes (c.render processors)) with
      | (true, tree) => (.ok (), tree)
      | (false, tree) => (.error .fileSystem, tree)

/-- Writes the configuration file at a path, where only the files there can stand in the way. -/
def save (c : Config) (processors : Nat) (tree : FileTree) (path : String) :
    Except Failure Unit × FileTree :=
  c.saveOn .willing processors tree path

end Config

end EdnTokens
