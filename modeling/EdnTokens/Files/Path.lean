/-!
# Paths

A path is written as names between slashes. Reading it part by part keeps the empty parts, because
a slash at the end demands a directory. Parts that are empty or a dot are idle: they lead nowhere.
Going to the directory around a path leaves out the idle parts at its end, and only those.

Names and paths have a greatest length in bytes, and no path holds the character zero.
-/

namespace EdnTokens.Path

/-- The greatest number of bytes of a name. -/
def nameLimit : Nat := 255

/-- The greatest number of bytes of a path. -/
def pathLimit : Nat := 4095

/-- Whether a path can be looked up at all. -/
def isUsable (path : String) : Bool :=
  path.utf8ByteSize ≤ pathLimit && !path.toList.contains '\x00'

/-- Splits at slashes. -/
def splitSlashes : List Char → List (List Char)
  | [] => [[]]
  | c :: cs =>
    if c = '/' then [] :: splitSlashes cs
    else
      match splitSlashes cs with
      | [] => [[c]]
      | part :: parts => (c :: part) :: parts

/-- The parts of a path between its slashes, empty ones included. -/
def parts (path : String) : List String :=
  (splitSlashes path.toList).map String.ofList

/-- The path with the given parts; a lone empty part stands for the root. -/
def ofParts (parts : List String) : String :=
  if parts = [""] then "/" else String.intercalate "/" parts

/-- Whether a path starts at the root. -/
def isAbsolute (path : String) : Bool :=
  path.toList.head? == some '/'

/-- Whether a part stays where it is. -/
def isIdle (part : String) : Bool :=
  part == "" || part == "."

/-- Leaves out idle parts at the beginning of a list, but not its last element. On the parts of a
path from the last to the first these are the idle parts at its end. -/
def dropIdle : List String → List String
  | part :: next :: parts =>
    if isIdle part then dropIdle (next :: parts) else part :: next :: parts
  | parts => parts

/-- The path without its last part that is not idle; the root and the empty path have none. -/
def parent? (path : String) : Option String :=
  match dropIdle (parts path).reverse with
  | [] => none
  | [first] => if first == "" then none else some ""
  | _ :: parts => some (ofParts (dropIdle parts).reverse)

/-- The paths of the directories around the path with the given parts, which run from the last to
the first; the innermost path comes first. -/
def around : List String → List String
  | _ :: part :: parts =>
    if isIdle part && parts != [] then around (part :: parts)
    else ofParts (part :: parts).reverse :: around (part :: parts)
  | _ => []

/-- The path and the paths of the directories around it, innermost first. -/
def ancestors (path : String) : List String :=
  path :: around (dropIdle (parts path).reverse)

/-- The path of `name` inside the directory `path`. -/
def join (path name : String) : String :=
  match path.toList.getLast? with
  | none => name
  | some c => if c = '/' then path ++ name else path ++ "/" ++ name

end EdnTokens.Path
