import EdnTokens.Text.Escape

/-!
# Failures

Why a command can fail, in which category that falls, and how it is worded. Failures of the file
system and malformed configurations are named by their category alone.
-/

namespace EdnTokens

/-- Why a command failed. -/
inductive Failure
  /-- The configuration file that was asked for does not exist. -/
  | configNotFound (path : String)
  /-- The configuration asks for no workers. -/
  | jobsNotPositive
  /-- The number of workers does not fit into a configuration file. -/
  | jobsOutOfRange
  /-- The configuration is no document, or a setting has the wrong type. -/
  | configMalformed
  /-- Nothing lies at an input path. -/
  | inputMissing (path : String)
  /-- An input path leads to a directory. -/
  | inputNotFile (path : String)
  /-- An input is not well-formed text. -/
  | inputNotText (path : String)
  /-- A file lies where a directory is to be set up. -/
  | targetNotDirectory (path : String)
  /-- There is a configuration file already. -/
  | configExists (path : String)
  /-- Some of the files checked have lexical errors. -/
  | checkFailed (files : Nat)
  /-- The workers of a check could not be started. -/
  | workersUnavailable (reason : String)
  /-- A file or directory could not be read, made or written. -/
  | fileSystem
  deriving DecidableEq, Repr

namespace Failure

/-- The category of a failure. -/
inductive Category
  | config
  | validation
  | fileOperation
  | execution
  | io
  | toml
  deriving DecidableEq, Repr

/-- The name of a category. -/
def Category.name : Category → String
  | config => "Config"
  | validation => "Validation"
  | fileOperation => "FileOperation"
  | execution => "CommandExecution"
  | io => "Io"
  | toml => "Toml"

/-- The beginning of the messages of a category. -/
def Category.label : Category → String
  | config => "Configuration error: "
  | validation => "Validation error: "
  | fileOperation => "File operation failed: "
  | execution => "Command execution failed: "
  | io => "IO error"
  | toml => "TOML error"

/-- The category of a failure. -/
def category : Failure → Category
  | configNotFound _ | jobsNotPositive | jobsOutOfRange => .config
  | configMalformed => .toml
  | inputMissing _ | inputNotFile _ | targetNotDirectory _ | configExists _ | checkFailed _ =>
    .validation
  | inputNotText _ => .fileOperation
  | workersUnavailable _ => .execution
  | fileSystem => .io

/-- What is said about a failure beyond its category. -/
def detail? : Failure → Option String
  | configNotFound path => some ("Configuration file not found: " ++ path)
  | jobsNotPositive => some "jobs must be at least 1"
  | jobsOutOfRange =>
    some "Failed to serialize configuration: out-of-range value for u64 type"
  | configMalformed => none
  | inputMissing path => some ("Input path does not exist: " ++ path)
  | inputNotFile path => some ("Input path is not a file: " ++ path)
  | inputNotText path => some (path ++ ": stream did not contain valid UTF-8")
  | targetNotDirectory path => some ("Target path is not a directory: " ++ path)
  | configExists path =>
    some ("Configuration file already exists (use --force to overwrite): " ++ path)
  | checkFailed files => some (String.ofList (Text.ofNat files) ++ " file(s) failed the check")
  | workersUnavailable reason => some ("Failed to build thread pool: " ++ reason)
  | fileSystem => none

/-- The message of a failure. -/
def message (f : Failure) : String :=
  f.category.label ++ f.detail?.getD ""

/-- The last line of a failed run. -/
def report (f : Failure) : Text :=
  "Error: ".toList ++ f.category.name.toList ++
    match f.detail? with
    | some detail => '(' :: Text.quoted detail.toList ++ [')']
    | none => []

end Failure

end EdnTokens
