import EdnTokens.Command.Config
import EdnTokens.Command.Inputs
import EdnTokens.Command.Notice
import EdnTokens.Json.Basic
import EdnTokens.Lexer.Stream

/-!
# Token listings

The tokens of some files, one line for each token or as JSON. Every listing shows where a token
starts, its kind, its text in escaped form and, for malformed input, its error type, so that
nothing of the file is lost.
-/

namespace EdnTokens

/-- What to list and how. -/
structure Listing where
  files : List String
  format : ListingFormat := .text
  options : Options := {}
  includeEof : Bool := false
  verbose : Bool := false

namespace Token

/-- A token as one line of a listing. -/
def listingLine (t : Token) (file : SourceFile) : Text :=
  let p := file.position t.start
  Text.ofNat t.start ++ ':' :: Text.ofNat p.line ++ ':' :: Text.ofNat p.column ++
    ' ' :: t.kind.name.toList ++ " \"".toList ++ Text.escape t.text ++ "\"".toList ++ t.errorSuffix

/-- A token as an object of a listing. -/
def toJson (t : Token) (file : SourceFile) : Json :=
  let p := file.position t.start
  .object
    [("kind".toList, .string t.kind.name.toList),
      ("text".toList, .string t.text),
      ("start".toList, .number t.start),
      ("line".toList, .number p.line),
      ("column".toList, .number p.column),
      ("attributes".toList,
        .object (t.attributes.entries.map fun (k, v) => (k.toList, .string v.toList)))]

end Token

namespace Listing

/-- The tokens of a file that are listed. -/
def tokens (l : Listing) (file : SourceFile) : List Token :=
  let all := tokenizeWith { l.options with report := false } file.content
  if l.includeEof then all else all.dropLast

/-- The line above the tokens of one of several files. -/
def heading (file : SourceFile) : Text :=
  Text.line ("==> ".toList ++ file.name.toList ++ " <==".toList)

/-- The listing of one file. -/
def body (l : Listing) (file : SourceFile) : Text :=
  match l.format with
  | .text => (l.tokens file).flatMap fun t => Text.line (t.listingLine file)
  | .json => Text.line (Json.render (.array ((l.tokens file).map fun t => t.toJson file)))

/-- The listing of all files of a source map. Text listings of several files have headings. -/
def ofMap (l : Listing) (m : SourceMap) : Text :=
  m.files.toList.flatMap fun file =>
    (if l.format = .text ∧ 1 < m.size then heading file else []) ++ l.body file

/-- Makes a listing. -/
def run (l : Listing) (tree : FileTree) : Except Failure (Text × List Notice) :=
  (SourceMap.ofInputs tree l.files).map fun m =>
    (l.ofMap m,
      if l.verbose then
        [.timed ("Listed ".toList ++ Text.ofNat m.size ++ " file(s)".toList)]
      else [])

end Listing

end EdnTokens
