import EdnTokens.CommandLine.Request

/-!
# Running the program

A run of the program as a function of its arguments, its environment and the files it finds. The
configuration is read first, whatever the command; a failure of any sort ends the run with a
report of it.
-/

namespace EdnTokens.CommandLine

/-- What a run leaves behind. -/
structure Outcome where
  exitCode : UInt32
  /-- What goes to the standard output. -/
  output : Text := []
  /-- What goes to the standard error stream. -/
  notices : List Notice := []
  tree : FileTree

/-- A run that succeeded. -/
def Outcome.success (tree : FileTree) (output : Text) (notices : List Notice) : Outcome :=
  { exitCode := 0, output, notices, tree }

/-- A run that failed. -/
def Outcome.failure (tree : FileTree) (notices : List Notice) (f : Failure) : Outcome :=
  { exitCode := 1, notices := notices ++ [.line f.report], tree }

/-- Runs a command under a configuration. -/
def Invocation.execute (i : Invocation) (env : Environment) (config : Config) (tree : FileTree) :
    Outcome :=
  match i.command with
  | .init path force =>
    let r := Init.run { path, force, verbose := i.verbose } env.processors tree
    match r.result with
    | .ok _ => .success r.tree [] r.notices
    | .error f => .failure r.tree r.notices f
  | .tokens files format strict includeEof =>
    let listing : Listing :=
      { files
        format := format.getD config.format
        options := config.options strict
        includeEof := includeEof || config.includeEof
        verbose := i.verbose }
    match listing.run tree with
    | .ok (output, notices) => .success tree output notices
    | .error f => .failure tree [] f
  | .check files strict jobs =>
    let mode : ColorMode := if i.noColor then .never else .auto
    let check : Check :=
      { files
        jobs := jobs.getD (config.workers env.processors)
        options := config.options strict
        color := mode.useColor env.terminal
        verbose := i.verbose }
    match check.run tree env.workers with
    | .error f => .failure tree [] f
    | .ok (report, notices) =>
      match report.verdict with
      | .ok () => .success tree [] notices
      | .error f => .failure tree notices f

/-- Reads the configuration and runs the command. -/
def Invocation.run (i : Invocation) (env : Environment) (tree : FileTree) : Outcome :=
  match Config.find env tree i.config with
  | .error f => .failure tree [] f
  | .ok config => i.execute env config tree

/-- The paths at which a run may look for something. -/
def Invocation.paths (i : Invocation) (env : Environment) : List String :=
  (match i.config with
    | some path => [path]
    | none => Config.candidates env) ++
  match i.command with
  | .init path force =>
    let setup : Init := { path, force }
    [setup.target, setup.configPath]
  | .tokens files .. => files
  | .check files .. => files

/-- Runs the program. -/
def run (env : Environment) (tree : FileTree) (arguments : List String) : Outcome :=
  match Request.ofArguments env arguments with
  | .run invocation => invocation.run env tree
  | .print t => .success tree t []
  | .invalid =>
    { exitCode := 2
      notices := [.line "error: the arguments make no sense; try --help".toList]
      tree }

end EdnTokens.CommandLine
