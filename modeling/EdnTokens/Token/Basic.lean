import EdnTokens.Text.Escape
import EdnTokens.Token.Attributes

/-!
# Tokens

A token is a kind, the exact text it covers, the offset of its first character and its attributes.
-/

namespace EdnTokens

/-- A typed piece of a text. -/
structure Token where
  kind : TokenKind
  text : Text
  /-- Offset of the first character, counted from one. -/
  start : Nat
  attributes : Attributes := .empty
  deriving DecidableEq

namespace Token

/-- The token at the end of a text. -/
def eof (start : Nat) : Token :=
  { kind := .eof, text := [], start }

/-- The token of malformed input. -/
def error (text : Text) (start : Nat) (type : Option ErrorType) : Token :=
  { kind := .lexError, text, start, attributes := .ofErrorType type }

/-- Number of characters covered. -/
def length (t : Token) : Nat :=
  t.text.length

/-- The offset just past the token. Offsets are 64-bit words, so the sum is taken modulo
the number of such words. -/
def stop (t : Token) : Nat :=
  (t.start + t.length) % UInt64.size

/-- The end of a token is where it starts and its length further on, unless that is out of range. -/
theorem stop_eq (t : Token) (h : t.start + t.length < UInt64.size) :
    t.stop = t.start + t.length :=
  Nat.mod_eq_of_lt h

/-- Whether the token is malformed input. -/
def isError (t : Token) : Bool :=
  t.kind == .lexError

/-- Whether the token marks the end of the text. -/
def isEof (t : Token) : Bool :=
  t.kind == .eof

/-- The recorded error type. -/
def errorType? (t : Token) : Option ErrorType :=
  t.attributes.errorType?

/-- The suffix that names the error type of a token in one-line forms. -/
def errorSuffix (t : Token) : Text :=
  match t.errorType? with
  | some e => " [".toList ++ e.name.toList ++ "]".toList
  | none => []

/-- The one-line form of a token: kind, offset, quoted text and error type. -/
def display (t : Token) : Text :=
  t.kind.name.toList ++ '@' :: Text.ofNat t.start ++ ' ' :: Text.quoted t.text ++ t.errorSuffix

end Token

end EdnTokens
