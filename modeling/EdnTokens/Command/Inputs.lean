import EdnTokens.Command.Failure
import EdnTokens.Files.Tree
import EdnTokens.Source.Map

/-!
# Inputs

The files that a command works on are read all at once, each name once, before anything is done
with them.
-/

namespace EdnTokens

/-- Reads an input file. -/
def FileTree.readInput (tree : FileTree) (path : String) : Except Failure Text :=
  match tree.entry? path with
  | none => .error (.inputMissing path)
  | some .directory => .error (.inputNotFile path)
  | some (.file content) =>
    match Text.ofBytes? content with
    | none => .error (.inputNotText path)
    | some t => .ok t

/-- Adds an input file to a source map, unless there is a file with its name already. -/
def SourceMap.addInput (tree : FileTree) (m : SourceMap) (path : String) :
    Except Failure SourceMap :=
  if (m.lookup? path).isSome then .ok m
  else (tree.readInput path).map fun content => (m.add path content).2

/-- The source map of some input files. -/
def SourceMap.ofInputs (tree : FileTree) (paths : List String) : Except Failure SourceMap :=
  paths.foldlM (SourceMap.addInput tree) SourceMap.empty

end EdnTokens
