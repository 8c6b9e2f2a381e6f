import EdnTokens.Command.Environment
import EdnTokens.Command.Inputs
import EdnTokens.Command.Notice
import EdnTokens.Diagnostic.Render
import EdnTokens.Lexer.Stream
import EdnTokens.Token.Tiling

/-!
# Checking files

A check reads some files, shows a diagnostic for each piece of malformed input and counts. It also
makes sure that the tokens of each file tile it. The files are shared among workers, which are
started after all files have been read; a check without workers fails.
-/

namespace EdnTokens

/-- What to check and how. -/
structure Check where
  files : List String
  /-- The number of workers asked for. -/
  jobs : Nat := 1
  options : Options := {}
  color : Bool := false
  verbose : Bool := false

/-- What checking one file brought to light. -/
structure FileOutcome where
  name : String
  tokens : Nat
  errors : Nat
  /-- The diagnostics as shown. -/
  rendered : List Text
  /-- Why its tokens do not tile it, unless they do. -/
  fault : Option Text

/-- Totals over the files of a check. -/
structure CheckReport where
  files : Nat := 0
  tokens : Nat := 0
  errors : Nat := 0
  failedFiles : Nat := 0
  deriving DecidableEq, Repr

namespace FileOutcome

/-- The outcome for a number that no file has. -/
def unknown (id : Nat) : FileOutcome where
  name := "<file " ++ String.ofList (Text.ofNat id) ++ ">"
  tokens := 0
  errors := 0
  rendered := []
  fault := some "file is not in the source map".toList

/-- A file passes if it has no malformed input and its tokens tile it. -/
def passed (o : FileOutcome) : Bool :=
  o.errors == 0 && o.fault.isNone

/-- What is told about a file. -/
def notices (o : FileOutcome) (verbose : Bool) : List Notice :=
  let name := o.name.toList
  let fault := o.fault.toList.map fun f =>
    "❌ ".toList ++ name ++ ": token stream does not tile the input: ".toList ++ f
  let verdict :=
    if !verbose then []
    else if o.passed then ["✅ ".toList ++ name]
    else ["❌ ".toList ++ name ++ " (".toList ++ Text.ofNat o.errors ++ " error(s))".toList]
  (o.rendered ++ fault ++ verdict).map .line

end FileOutcome

namespace CheckReport

/-- The totals of some outcomes. -/
def ofOutcomes (os : List FileOutcome) : CheckReport where
  files := os.length
  tokens := os.foldr (fun o n => o.tokens + n) 0
  errors := os.foldr (fun o n => o.errors + n) 0
  failedFiles := os.countP fun o => !o.passed

/-- The line that sums up a check. -/
def summary (r : CheckReport) : Notice :=
  .timed ("📊 Checked ".toList ++ Text.ofNat r.files ++ " file(s): ".toList ++
    Text.ofNat r.tokens ++ " token(s), ".toList ++ Text.ofNat r.errors ++ " error(s)".toList)

/-- A check fails if any file failed. -/
def verdict (r : CheckReport) : Except Failure Unit :=
  if 0 < r.failedFiles then .error (.checkFailed r.failedFiles) else .ok ()

end CheckReport

namespace Check

/-- Checks one file. -/
def outcome (c : Check) (file : SourceFile) : FileOutcome :=
  let lexed := Lexed.ofText { c.options with report := true } .empty file.content
  { name := file.name
    tokens := lexed.tokens.length
    errors := lexed.tokens.countP Token.isError
    rendered := lexed.collector.diagnostics.map fun d => d.render file c.color
    fault := (Token.tilingFault? file.content lexed.tokens).map TilingFault.message }

/-- Checks the file with a number. -/
def outcomeAt (c : Check) (m : SourceMap) (id : Nat) : FileOutcome :=
  match m.get? id with
  | some file => c.outcome file
  | none => .unknown id

/-- The number of workers of a check. There is one at least, whatever was asked for. -/
def workers (c : Check) : Nat :=
  max c.jobs 1

/-- The report on some outcomes, and all that is told about them. -/
def conclude (c : Check) (outcomes : List FileOutcome) : CheckReport × List Notice :=
  let report := CheckReport.ofOutcomes outcomes
  (report, outcomes.flatMap (·.notices c.verbose) ++ [report.summary])

/-- Checks all files and counts. Files that cannot be read are found before any worker is
started. -/
def run (c : Check) (tree : FileTree) (host : WorkerHost := .willing) :
    Except Failure (CheckReport × List Notice) := do
  let m ← SourceMap.ofInputs tree c.files
  let pool ← (host.start c.workers).mapError Failure.workersUnavailable
  return c.conclude (pool.collect m.size (c.outcomeAt m))

end Check

end EdnTokens
