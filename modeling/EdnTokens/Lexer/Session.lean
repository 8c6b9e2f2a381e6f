import EdnTokens.Diagnostic.Basic
import EdnTokens.Lexer.Cursor
import EdnTokens.Lexer.Progress
import EdnTokens.Token.Basic

/-!
# Lexing sessions

A session reads one text token by token. It remembers where the current token begins, collects a
diagnostic for each piece of malformed input if it is asked to, and keeps a log of what it met.

Asking for the next token begins a new one at the cursor. Asking for a particular scanner does
not, so that its token covers everything since the last beginning.
-/

namespace EdnTokens

/-- Options of a session. -/
structure Options where
  /-- Check the digits of character escapes. -/
  strictEscapes : Bool := false
  /-- Emit a diagnostic for each piece of malformed input. -/
  report : Bool := true
  deriving DecidableEq, Repr

/-- What is worth a line in a log. -/
inductive Event
  /-- Malformed input was met. -/
  | lexError (start : Nat) (text : Text) (type : Option ErrorType)
  /-- A text was read to its end. -/
  | tokenized (tokens errors chars : Nat) (strict : Bool)
  deriving DecidableEq, Repr

/-- A value in a log line. -/
inductive Event.Value
  | number (n : Nat)
  | text (t : Text)
  | flag (b : Bool)
  deriving DecidableEq, Repr

namespace Event

/-- How detailed a log has to be to show the event. -/
def level : Event → String
  | lexError .. => "TRACE"
  | tokenized .. => "DEBUG"

/-- The wording of an event. -/
def message : Event → String
  | lexError .. => "lex error"
  | tokenized .. => "tokenized input"

/-- The named values of an event. -/
def fields : Event → List (String × Value)
  | lexError start text type =>
    [("start", .number start), ("text", .text text),
      ("error_type", .text (type.elim "none" ErrorType.name).toList)]
  | tokenized tokens errors chars strict =>
    [("tokens", .number tokens), ("errors", .number errors), ("chars", .number chars),
      ("strict", .flag strict)]

end Event

/-- The state of reading one text. -/
structure Session where
  options : Options
  /-- Where the current token begins. -/
  start : Cursor
  /-- What has been read. -/
  cursor : Cursor
  /-- The diagnostics emitted so far. -/
  collector : Collector
  /-- The log so far. -/
  events : Array Event := #[]

namespace Session

/-- The kind of a word: reserved or not. -/
def wordKind (text : Text) : TokenKind :=
  if text = "nil".toList then .nilWord
  else if text = "true".toList then .trueWord
  else if text = "false".toList then .falseWord
  else .symbol

/-- The session at the beginning of a text. -/
def ofText (options : Options) (collector : Collector) (t : Text) : Session :=
  { options, start := .ofText t, cursor := .ofText t, collector }

/-- The text of the current token: everything from its beginning up to the cursor. -/
def text (s : Session) : Text :=
  s.start.rest.take (s.cursor.position - s.start.position)

/-- The span of the current token. -/
def span (s : Session) : Span where
  start := s.start.position
  stop := s.cursor.position
  line := s.start.line
  column := s.start.column

/-- Begins a token at the cursor. -/
def begin (s : Session) : Session :=
  { s with start := s.cursor }

/-- Moves the cursor, leaving the beginning of the current token where it is. -/
def advanceBy (s : Session) (n : Nat) : Session :=
  { s with cursor := s.cursor.advanceBy n }

/-- The current token as a token of the given kind. -/
def token (s : Session) (kind : TokenKind) : Token :=
  { kind, text := s.text, start := s.start.position }

/-- The current token as malformed input. -/
def errorToken (s : Session) (type : Option ErrorType) : Token :=
  .error s.text s.start.position type

/-- Logs the current token as malformed input and reports it if the options ask for that. -/
def complain (s : Session) (type : Option ErrorType) : Session :=
  { s with
    events := s.events.push (.lexError s.start.position s.text type)
    collector :=
      if s.options.report then s.collector.emit (.ofLexError type s.text s.span)
      else s.collector }

/-- Closes the current token as a verdict says. -/
def close (s : Session) : Verdict → Token × Session
  | .token kind => (s.token kind, s)
  | .word => (s.token (wordKind s.text), s)
  | .error type => (s.errorToken type, s.complain type)

/-- Takes the characters of a scan and closes the current token. -/
def perform (s : Session) (scan : Scan) : Token × Session :=
  (s.advanceBy scan.width).close scan.verdict

/-- Continues the current token with a particular scanner. -/
def scanWith (s : Session) (scanner : Scanner) : Token × Session :=
  s.perform (Scan.ofFamily s.options.strictEscapes scanner s.cursor.rest)

/-- The next token. At the end of the text this is the end token, again and again. -/
def nextToken (s : Session) : Token × Session :=
  s.begin.perform (Scan.next s.options.strictEscapes s.cursor.rest)

/-- The next token other than the end token. -/
def next? (s : Session) : Option Token × Session :=
  let (token, s) := s.nextToken
  (if token.isEof then none else some token, s)

/-! ### Reading on -/

/-- Closing a token does not move the cursor. -/
@[simp] theorem cursor_close (s : Session) (v : Verdict) : (s.close v).2.cursor = s.cursor := by
  cases v <;> rfl

/-- The next token moves the cursor by what its scan takes. -/
@[simp] theorem cursor_nextToken (s : Session) :
    s.nextToken.2.cursor =
      s.cursor.advanceBy (Scan.next s.options.strictEscapes s.cursor.rest).width := by
  simp [nextToken, perform, advanceBy, begin]

/-- No word has the kind of the end. -/
theorem kind_wordKind_ne_eof (t : Text) : wordKind t ≠ .eof := by
  unfold wordKind
  repeat' split
  all_goals decide

/-- Closing a token gives the end token only if the verdict says so. -/
theorem close_isEof_iff (s : Session) (v : Verdict) :
    (s.close v).1.isEof = true ↔ v = .token .eof := by
  cases v with
  | token kind => simp [close, token, Token.isEof]
  | word => simp [close, token, Token.isEof, kind_wordKind_ne_eof]
  | error type => simp [close, errorToken, Token.error, Token.isEof]

/-- The end token appears exactly when nothing lies ahead. -/
theorem nextToken_isEof_iff (s : Session) : s.nextToken.1.isEof = true ↔ s.cursor.rest = [] := by
  rw [nextToken, perform, close_isEof_iff, Scan.next_verdict_eq_eof_iff]

/-- As long as there is something ahead, the next token takes some of it. -/
theorem rest_nextToken_lt (s : Session) (h : ¬ s.nextToken.1.isEof = true) :
    s.nextToken.2.cursor.rest.length < s.cursor.rest.length := by
  rw [nextToken_isEof_iff] at h
  cases hr : s.cursor.rest with
  | nil => exact absurd hr h
  | cons c t =>
    have hpos := Scan.next_width_pos s.options.strictEscapes c t
    simp only [cursor_nextToken, Cursor.rest_advanceBy, hr, List.length_drop, List.length_cons]
    omega

/-- Reads to the end of the text, adding the tokens to those read before. The last one is the end
token. -/
def drain (tokens : Array Token) (s : Session) : Array Token × Session :=
  let r := s.nextToken
  if r.1.isEof then (tokens.push r.1, r.2) else drain (tokens.push r.1) r.2
termination_by s.cursor.rest.length
decreasing_by exact s.rest_nextToken_lt (by assumption)

/-- Up to `n` tokens, the end token excluded. -/
def take (s : Session) : Nat → List Token × Session
  | 0 => ([], s)
  | n + 1 =>
    match s.next? with
    | (none, s) => ([], s)
    | (some token, s) =>
      let (tokens, s) := s.take n
      (token :: tokens, s)

/-- All tokens that are left, the end token excluded. -/
def remaining (s : Session) : List Token × Session :=
  let (tokens, s) := s.drain #[]
  (tokens.pop.toList, s)

end Session

end EdnTokens
