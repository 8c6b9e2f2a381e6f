/-!
# Token kinds

The closed set of token kinds, and the classification of malformed input. Both are written by
name in listings; reading a name back recovers the kind.
-/

namespace EdnTokens

/-- The kind of a token. The order of the constructors is the order of kinds. -/
inductive TokenKind
  | whitespace
  | comment
  | number
  | nilWord
  | trueWord
  | falseWord
  | symbol
  | keyword
  | string
  | character
  | leftParen
  | rightParen
  | leftBracket
  | rightBracket
  | leftBrace
  | rightBrace
  | set
  | discard
  | tag
  | eof
  | lexError
  deriving DecidableEq, Repr

/-- A name that denotes neither a kind nor an error type. -/
structure UnknownName where
  name : String
  deriving DecidableEq, Repr

/-- The wording of an unknown name. -/
def UnknownName.message (e : UnknownName) : String :=
  "unknown name `" ++ e.name ++ "`"

namespace TokenKind

/-- All kinds in order. -/
def all : List TokenKind :=
  [whitespace, comment, number, nilWord, trueWord, falseWord, symbol, keyword, string, character,
    leftParen, rightParen, leftBracket, rightBracket, leftBrace, rightBrace, set, discard, tag,
    eof, lexError]

/-- The name under which a kind is listed. -/
def name : TokenKind → String
  | whitespace => "whitespace"
  | comment => "comment"
  | number => "number"
  | nilWord => "nil"
  | trueWord => "true"
  | falseWord => "false"
  | symbol => "symbol"
  | keyword => "keyword"
  | string => "string"
  | character => "character"
  | leftParen => "lparen"
  | rightParen => "rparen"
  | leftBracket => "lbracket"
  | rightBracket => "rbracket"
  | leftBrace => "lbrace"
  | rightBrace => "rbrace"
  | set => "set"
  | discard => "discard"
  | tag => "tag"
  | eof => "eof"
  | lexError => "lex-error"

/-- The kind with a given name. -/
def ofName (s : String) : Except UnknownName TokenKind :=
  match all.find? (fun k => k.name == s) with
  | some k => .ok k
  | none => .error ⟨s⟩

/-- No kind is left out of the list. -/
theorem mem_all (k : TokenKind) : k ∈ all := by
  cases k <;> decide

/-- The name of a kind is that of no other. -/
theorem ofName_name (k : TokenKind) : ofName k.name = .ok k := by
  cases k <;> rfl

/-- Kinds that hold no nested structure. -/
def isLeaf : TokenKind → Bool
  | whitespace | comment | number | nilWord | trueWord | falseWord | symbol | keyword | string
  | character => true
  | _ => false

/-- Kinds that close a form. -/
def isClosing : TokenKind → Bool
  | rightParen | rightBracket | rightBrace => true
  | _ => false

/-- The kinds ordered before a kind. -/
def below (k : TokenKind) : List TokenKind :=
  all.takeWhile (· != k)

/-- The kind of a single-character delimiter. -/
def ofDelimiter? (c : Char) : Option TokenKind :=
  if c = '(' then some leftParen
  else if c = ')' then some rightParen
  else if c = '[' then some leftBracket
  else if c = ']' then some rightBracket
  else if c = '\x7b' then some leftBrace
  else if c = '\x7d' then some rightBrace
  else none

end TokenKind

/-! ### Malformed input -/

/-- What is wrong with the text of a `lexError` token. An unterminated string has no error
type. -/
inductive ErrorType
  /-- A number directly followed by a letter or symbol punctuation. -/
  | invalidNumberFormat
  /-- Three leading colons. -/
  | invalidKeyword
  /-- A number sign followed by neither a brace, an underscore nor a letter. -/
  | invalidDispatch
  /-- A character that begins no token. -/
  | unrecognizedCharacter
  /-- A character escape with wrong or missing digits. -/
  | invalidCharacterEscape
  deriving DecidableEq, Repr

namespace ErrorType

/-- All error types. -/
def all : List ErrorType :=
  [invalidNumberFormat, invalidKeyword, invalidDispatch, unrecognizedCharacter,
    invalidCharacterEscape]

/-- The name under which an error type is listed. -/
def name : ErrorType → String
  | invalidNumberFormat => "invalid-number-format"
  | invalidKeyword => "invalid-keyword"
  | invalidDispatch => "invalid-hashtag-dispatcher"
  | unrecognizedCharacter => "unrecognized-character"
  | invalidCharacterEscape => "invalid-character-escape"

/-- The error type with a given name. -/
def ofName (s : String) : Except UnknownName ErrorType :=
  match all.find? (fun e => e.name == s) with
  | some e => .ok e
  | none => .error ⟨s⟩

/-- The name of an error type is that of no other. -/
theorem ofName_name (e : ErrorType) : ofName e.name = .ok e := by
  cases e <;> rfl

end ErrorType

end EdnTokens
