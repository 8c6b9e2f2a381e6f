import EdnTokens.Lexer.Session

/-!
# Token streams

The tokens of a whole text. Every character belongs to exactly one token, and the stream ends with
the end token.
-/

namespace EdnTokens

/-- What reading a text to its end leaves behind. -/
structure Lexed where
  tokens : List Token
  /-- The collector that was handed in, with the diagnostics of this text added. -/
  collector : Collector
  /-- The log of this text. -/
  events : List Event

namespace Lexed

/-- Reads a whole text, reporting to a collector. -/
def ofText (options : Options) (collector : Collector) (t : Text) : Lexed :=
  let (tokens, s) := (Session.ofText options collector t).drain #[]
  let errors := tokens.toList.countP Token.isError
  { tokens := tokens.toList
    collector := s.collector
    events := s.events.toList ++
      [.tokenized tokens.size errors (s.cursor.position - 1) options.strictEscapes] }

end Lexed

/-- The tokens of a text under the given options. -/
def tokenizeWith (options : Options) (t : Text) : List Token :=
  (Lexed.ofText options .empty t).tokens

/-- The tokens of a text under the default options. -/
def tokenize (t : Text) : List Token :=
  tokenizeWith { report := false } t

end EdnTokens
