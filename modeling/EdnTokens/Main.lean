import EdnTokens.CommandLine.Run

/-!
# The program

The outer layer: it takes a picture of the files that a run may look at, lets the run work on that
picture, and carries out what the run changed.
-/

namespace EdnTokens.Program

/-- The path of a location. -/
def pathOf (location : List String) : String :=
  Path.ofParts ("" :: location)

/-- Adds what lies at a location to a picture of the files. -/
def look (tree : FileTree) (location : List String) : IO FileTree := do
  match ← (IO.FS.realPath (pathOf location)).toBaseIO with
  | .error _ => return tree
  | .ok place =>
    if ← place.isDir then return tree.set location .directory
    else return tree.set location (.file (← IO.FS.readBinFile place))

/-- Adds what lies on the way along a path to a picture of the files. -/
def lookAlong (tree : FileTree) (path : String) : IO FileTree := do
  let mut tree := tree
  let mut location := if Path.isAbsolute path then [] else tree.workingDirectory
  tree ← look tree location
  for part in Path.parts path do
    match tree.step? location part with
    | none => return tree
    | some next =>
      location := next
      tree ← look tree location
  return tree

/-- Carries out the changes of a run along a path, from the outside inwards. -/
def carryOut (before after : FileTree) (path : String) : IO Unit := do
  for path in (Path.ancestors path).reverse do
    if let some location := after.locate? path then
      let entry := after.entryAt? location
      if entry != before.entryAt? location then
        match entry with
        | some .directory => IO.FS.createDirAll (pathOf location)
        | some (.file content) => IO.FS.writeBinFile (pathOf location) content
        | none => pure ()

/-- The number of processors of this machine. -/
def processors : IO Nat := do
  try
    let info ← IO.FS.readFile "/proc/cpuinfo"
    return max 1 ((info.splitOn "\n").countP ("processor".isPrefixOf ·))
  catch _ => return 1

/-- A number of milliseconds in seconds with two places. -/
def seconds (milliseconds : Nat) : Text :=
  let hundredths := (milliseconds + 5) / 10
  Text.ofNat (hundredths / 100) ++ '.' :: Nat.digitChar (hundredths / 10 % 10) ::
    [Nat.digitChar (hundredths % 10)]

/-- The environment of this run. -/
def environment : IO Environment := do
  let names := ["HOME", "XDG_CONFIG_HOME", "EDNT_VERBOSE", "EDNT_CONFIG", "EDNT_NO_COLOR"]
  let values ← names.mapM fun name => do return (name, ← IO.getEnv name)
  return {
    valueOf? := fun name => (values.lookup name).join
    processors := ← processors
    terminal := ← (← IO.getStderr).isTty }

/-- Runs the program on the files of this machine. -/
def run (arguments : List String) : IO UInt32 := do
  let begun ← IO.monoMsNow
  let env ← environment
  let workingDirectory := (Path.parts (← IO.currentDir).toString).filter (!Path.isIdle ·)
  let paths :=
    match CommandLine.Request.ofArguments env arguments with
    | .run invocation => invocation.paths env
    | _ => []
  let mut before := FileTree.empty workingDirectory
  for path in paths do
    before ← lookAlong before path
  let outcome := CommandLine.run env before arguments
  for path in paths do
    carryOut before outcome.tree path
  IO.print (String.ofList outcome.output)
  let elapsed := seconds ((← IO.monoMsNow) - begun)
  IO.eprint (String.ofList (outcome.notices.flatMap (·.render elapsed)))
  return outcome.exitCode

end EdnTokens.Program

/-- The entry point. -/
def main (arguments : List String) : IO UInt32 :=
  EdnTokens.Program.run arguments
