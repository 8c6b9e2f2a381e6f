import EdnTokens.Toml.Scalar

/-!
# Reading documents

A reader takes a value off the front of a text and returns it with the rest. A document is read
line by line into statements, from which its table is built.

Nesting is bounded: arrays and inline tables nest less than `depthLimit` deep, and a dotted key
has less than `depthLimit` parts.
-/

namespace EdnTokens.Toml

open Text (digitValue charOfCodePoint?)

/-- Takes a value off the front of a text, if there is one. -/
abbrev Reader (α : Type) := Text → Option (α × Text)

/-- The bound on nesting. -/
def depthLimit : Nat := 80

/-! ### Blanks, comments and line ends -/

/-- Blanks within a line. -/
def isBlank (c : Char) : Bool :=
  c == ' ' || c == '\t'

/-- The characters of comments and of strings on one line: everything but control characters,
though a tab is allowed. -/
def isPlain (c : Char) : Bool :=
  c == '\t' || (0x20 ≤ c.toNat && c.toNat != 0x7F)

/-- Leaves out blanks. -/
def skipBlanks (t : Text) : Text :=
  t.dropWhile isBlank

/-- Leaves out a comment. -/
def skipComment : Text → Text
  | '#' :: t => t.dropWhile isPlain
  | t => t

/-- Takes a line end off the front of a text. -/
def lineBreak? : Text → Option Text
  | '\n' :: t => some t
  | '\r' :: '\n' :: t => some t
  | _ => none

/-- Reads the end of a line: blanks, a comment, and the line end or the end of the document. -/
def endOfLine? (t : Text) : Option Text :=
  match skipComment (skipBlanks t) with
  | [] => some []
  | t => lineBreak? t

/-- Leaves out blanks, line ends and comments. The flag tells whether a comment is going on. -/
def skipSpace (inComment : Bool) : Text → Text
  | [] => []
  | '\n' :: t => skipSpace false t
  | '\r' :: '\n' :: t => skipSpace false t
  | c :: t =>
    if inComment then
      if isPlain c then skipSpace true t else c :: t
    else if isBlank c then skipSpace false t
    else if c = '#' then skipSpace true t
    else c :: t

/-! ### Strings -/

/-- The sort of a string: its quote, whether backslashes escape, and whether it runs over lines. -/
structure StringForm where
  quote : Char
  escapes : Bool
  multiline : Bool
  deriving DecidableEq, Repr

/-- What the characters of a string are read as. -/
inductive StringMode
  /-- As themselves. -/
  | plain
  /-- As the rest of the blanks that a backslash at the end of a line leaves out. -/
  | trimming
  /-- As what follows a backslash. -/
  | escape
  /-- As blanks between a backslash and the line end it leaves out. -/
  | lineEnd
  /-- As the remaining digits of a code point. -/
  | codePoint (digits : Nat) (value : Nat)
  deriving DecidableEq, Repr

/-- The character that a letter behind a backslash stands for. -/
def escapedChar? (c : Char) : Option Char :=
  if c = 'b' then some '\x08'
  else if c = 't' then some '\t'
  else if c = 'n' then some '\n'
  else if c = 'f' then some '\x0c'
  else if c = 'r' then some '\r'
  else if c = '"' then some '"'
  else if c = '\\' then some '\\'
  else none

/-- Takes the closing quotes off the front of a text, with the quotes that still belong to the
string. Where three quotes close the string, up to two more may stand before them. -/
def closeString? (form : StringForm) : Text → Option (Text × Text)
  | a :: t =>
    if a ≠ form.quote then none
    else if !form.multiline then some ([], t)
    else
      match t with
      | b :: c :: t =>
        if b ≠ form.quote ∨ c ≠ form.quote then none
        else
          match t with
          | d :: e :: t' =>
            if d = form.quote ∧ e = form.quote then some ([d, e], t')
            else if d = form.quote then some ([d], e :: t')
            else some ([], t)
          | [d] => if d = form.quote then some ([d], []) else some ([], t)
          | [] => some ([], [])
      | _ => none
  | [] => none

/-- Reads the characters of a string and its closing quotes; `taken` holds the characters read so
far, the last one first. -/
def stringBody (form : StringForm) (mode : StringMode) (taken : Text) : Text → Option (Text × Text)
  | [] => none
  | c :: t =>
    match mode with
    | .escape =>
      if c = 'u' then stringBody form (.codePoint 4 0) taken t
      else if c = 'U' then stringBody form (.codePoint 8 0) taken t
      else if form.multiline ∧ isBlank c then stringBody form .lineEnd taken t
      else if form.multiline ∧ c = '\n' then stringBody form .trimming taken t
      else if form.multiline ∧ c = '\r' ∧ t.head? = some '\n' then
        stringBody form .lineEnd taken t
      else
        match escapedChar? c with
        | some x => stringBody form .plain (x :: taken) t
        | none => none
    -- behind a backslash at the end of a line only blanks may follow, up to the line feed
    | .lineEnd =>
      if isBlank c ∨ c = '\r' ∧ t.head? = some '\n' then stringBody form .lineEnd taken t
      else if c = '\n' then stringBody form .trimming taken t
      else none
    | .codePoint digits value =>
      if 16 ≤ digitValue c then none
      else
        let value := value * 16 + digitValue c
        match digits with
        | 0 => none
        | 1 =>
          match charOfCodePoint? value with
          | some x => stringBody form .plain (x :: taken) t
          | none => none
        | digits + 1 => stringBody form (.codePoint digits value) taken t
    -- up to two quotes before the closing ones belong to the content of a string on several lines
    | _ =>
      match closeString? form (c :: t) with
      | some (quotes, rest) => some (taken.reverse ++ quotes, rest)
      | none =>
        if mode = .trimming ∧ (isBlank c ∨ c = '\n') then stringBody form .trimming taken t
        else if mode = .trimming ∧ c = '\r' ∧ t.head? = some '\n' then
          stringBody form .trimming taken t
        else if form.multiline ∧ c = '\n' then stringBody form .plain (c :: taken) t
        else if form.multiline ∧ c = '\r' ∧ t.head? = some '\n' then
          stringBody form .plain taken t
        else if form.escapes ∧ c = '\\' then stringBody form .escape taken t
        else if isPlain c then stringBody form .plain (c :: taken) t
        else none

/-- Reads a string on one line. -/
def readLineString : Reader Text
  | '"' :: t => stringBody ⟨'"', true, false⟩ .plain [] t
  | '\x27' :: t => stringBody ⟨'\x27', false, false⟩ .plain [] t
  | _ => none

/-- Reads a string of any sort. A line end right behind three opening quotes is left out. -/
def readString : Reader Text
  | '"' :: '"' :: '"' :: t => stringBody ⟨'"', true, true⟩ .plain [] ((lineBreak? t).getD t)
  | '\x27' :: '\x27' :: '\x27' :: t =>
    stringBody ⟨'\x27', false, true⟩ .plain [] ((lineBreak? t).getD t)
  | t => readLineString t

/-! ### Keys -/

/-- The characters of a bare key. -/
def isKeyChar (c : Char) : Bool :=
  c.isAlphanum || c == '_' || c == '-'

/-- Reads one part of a key. -/
def readKeyPart (t : Text) : Option (Text × Text) :=
  match t with
  | '"' :: _ | '\x27' :: _ => readLineString t
  | _ =>
    let name := t.takeWhile isKeyChar
    if name = [] then none else some (name, t.dropWhile isKeyChar)

/-- Reads a key of at most `limit` parts, with the blanks around them: the parts before the last
one, and the last one. -/
def readKey : Nat → Reader (List Text × Text)
  | 0, _ => none
  | limit + 1, t =>
    match readKeyPart (skipBlanks t) with
    | none => none
    | some (part, t) =>
      match skipBlanks t with
      | '.' :: t =>
        match readKey limit t with
        | none => none
        | some ((path, key), t) => some ((part :: path, key), t)
      | t => some (([], part), t)

/-- Reads a key. -/
def readFullKey : Reader (List Text × Text) :=
  readKey (depthLimit - 1)

/-! ### Values -/

/-- Reads a key, an equals sign and a value. -/
def readPair (item : Reader Node) (t : Text) : Option ((List Text × Text × Node) × Text) :=
  match readFullKey t with
  | none => none
  | some ((path, key), t) =>
    match skipBlanks t with
    | '=' :: t => (item (skipBlanks t)).map fun (value, t) => ((path, key, value), t)
    | _ => none

/-- Reads the items of an array and its closing bracket, at most `fuel` items. -/
def readItems (item : Reader Node) : Nat → Reader (List Node)
  | 0, _ => none
  | fuel + 1, t =>
    match skipSpace false t with
    | ']' :: t => some ([], t)
    | t =>
      match item t with
      | none => none
      | some (value, t) =>
        match skipSpace false t with
        | ']' :: t => some ([value], t)
        | ',' :: t => (readItems item fuel t).map fun (values, t) => (value :: values, t)
        | _ => none

/-- Reads the pairs of an inline table and its closing brace, at least one and at most `fuel`. -/
def readPairs (item : Reader Node) : Nat → Reader (List (List Text × Text × Node))
  | 0, _ => none
  | fuel + 1, t =>
    match readPair item t with
    | none => none
    | some (pair, t) =>
      match skipBlanks t with
      | '\x7d' :: t => some ([pair], t)
      | ',' :: t => (readPairs item fuel t).map fun (pairs, t) => (pair :: pairs, t)
      | _ => none

/-- Reads an inline table behind its opening brace. -/
def readInline (item : Reader Node) (t : Text) : Option (Node × Text) :=
  match skipBlanks t with
  | '\x7d' :: t => some (.table .inline [], t)
  | t =>
    match readPairs item (t.length + 1) t with
    | none => none
    | some (pairs, t) => (Node.ofPairs pairs).map fun node => (node, t)

/-- Reads a string or a bare scalar. -/
def readLeaf (t : Text) : Option (Node × Text) :=
  match t with
  | '"' :: _ | '\x27' :: _ => (readString t).map fun (s, t) => (.string s, t)
  | _ => readScalar t

/-- Reads a value in which arrays and inline tables nest at most `depth` deep. -/
def readValue : Nat → Reader Node
  | 0, t => readLeaf t
  | depth + 1, t =>
    match t with
    | '[' :: rest =>
      (readItems (readValue depth) (rest.length + 1) rest).map fun (items, t) => (.array items, t)
    | '\x7b' :: rest => readInline (readValue depth) rest
    | _ => readLeaf t

/-! ### Documents -/

/-- Reads a header behind its opening brackets, with the closing ones and the end of the line. -/
def readHeader (closing : Text) (t : Text) : Option ((List Text × Text) × Text) :=
  match readFullKey t with
  | none => none
  | some (key, t) =>
    if closing.isPrefixOf t then
      (endOfLine? (t.drop closing.length)).map fun t => (key, t)
    else none

/-- Reads a line with a header or an assignment. -/
def readStatement (t : Text) : Option (Statement × Text) :=
  match skipBlanks t with
  | '[' :: '[' :: t =>
    (readHeader "]]".toList t).map fun ((path, key), t) => (.repeatedHeader path key, t)
  | '[' :: t => (readHeader "]".toList t).map fun ((path, key), t) => (.header path key, t)
  | t =>
    match readPair (readValue (depthLimit - 1)) t with
    | none => none
    | some ((path, key, value), t) =>
      (endOfLine? t).map fun t => (.assignment path key value, t)

/-- Reads the lines of a document, at most `fuel` of them. Lines without a statement are left
out. -/
def readStatements : Nat → Text → Option (List Statement)
  | _, [] => some []
  | 0, _ => none
  | fuel + 1, t =>
    match endOfLine? t with
    | some t => readStatements fuel t
    | none =>
      match readStatement t with
      | none => none
      | some (statement, t) => (readStatements fuel t).map (statement :: ·)

/-- Leaves out a byte order mark. -/
def skipMark : Text → Text
  | '\uFEFF' :: t => t
  | t => t

/-- The table of a document. -/
def parse (t : Text) : Option Table :=
  let t := skipMark t
  (readStatements t.length t).bind Table.ofStatements

end EdnTokens.Toml
