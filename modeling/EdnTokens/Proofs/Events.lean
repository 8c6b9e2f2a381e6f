import Mathlib.Data.List.Forall2
import EdnTokens.Proofs.Grammar

/-!
# The log of a text

Reading a text logs an event for each malformed token at the moment at which the token is closed,
and a summary once everything is read. The log therefore tells the same story as the tokens
(`events_mirror_tokens`).

The two are made apart from each other. An event is made by the session that closes the token, and
the summary counts the malformed tokens again, among those that were collected, and takes the number
of characters from the place where the cursor stands in the end. They agree because every verdict
that gives a malformed token also logs it (`Session.events_nextToken`), and because a session that
reads to the end leaves its cursor behind the whole text (`Session.cursor_drain`). Diagnostics are
no part of this, so the log does not depend on whether any are asked for.
-/

namespace EdnTokens

open Lexeme

/-! ### Events of tokens -/

namespace Event

/-- The event that a malformed token leaves in the log. -/
def ofToken (t : Token) : Event :=
  .lexError t.start t.text t.errorType?

/-- The event tells of the malformed token `t`: where it begins, its text, and its error type as it
stands in its attributes, or `none` if there is none. -/
structure Traces (t : Token) (e : Event) : Prop where
  level : e.level = "TRACE"
  message : e.message = "lex error"
  fields : e.fields = [("start", .number t.start), ("text", .text t.text),
    ("error_type", .text ((t.attributes.get? Attributes.errorTypeKey).getD "none").toList)]

/-- The event sums a text of `chars` characters up: it has `tokens` tokens, of which `errors` are
malformed. -/
structure Summarizes (tokens errors chars : Nat) (strict : Bool) (e : Event) : Prop where
  level : e.level = "DEBUG"
  message : e.message = "tokenized input"
  fields : e.fields = [("tokens", .number tokens), ("errors", .number errors),
    ("chars", .number chars), ("strict", .flag strict)]

end Event

/-- The event of a lexeme that was found malformed tells of its token. -/
lemma Event.traces_ofToken {l : Lexeme} {type : Option ErrorType} (h : l.verdict = .error type)
    (start : Nat) : Event.Traces (l.token start) (.ofToken (l.token start)) := by
  have htype := errorType?_token h start
  have hname : (l.token start).attributes.get? Attributes.errorTypeKey =
      type.map ErrorType.name := by
    rw [← Attributes.get?_ofErrorType]
    simp only [token, attributes, h]
  refine { level := rfl, message := rfl, fields := ?_ }
  rw [hname, ofToken, htype]
  cases type with
  | none => rfl
  | some type => rfl

/-! ### What a session logs -/

/-- No scanner gives a malformed token without finding malformed input. -/
lemma Scan.next_verdict_ne_lexError (strict : Bool) (t : Text) :
    (Scan.next strict t).verdict ≠ .token .lexError := by
  by_cases ht : t = []
  · rw [(next_verdict_eq_eof_iff strict t).mpr ht]
    decide
  · intro h
    have hadmits := admits_first strict ht
    rw [first, h] at hadmits
    exact hadmits.2.1

namespace Session

/-- A token that is closed is logged if it is malformed. -/
lemma events_close (s : Session) {v : Verdict} (hv : v ≠ .token .lexError) :
    (s.close v).2.events.toList =
      s.events.toList ++ ([(s.close v).1].filter Token.isError).map .ofToken := by
  cases v with
  | token kind =>
    have hkind : (s.token kind).isError = false := by
      rw [Token.isError, token, beq_eq_false_iff_ne]
      rintro rfl
      exact hv rfl
    simp [close, hkind]
  -- the kind of a word is found out from its text, and is never that of malformed input
  | word =>
    have hword : (s.token (wordKind s.text)).isError = false := by
      rw [Token.isError, token, beq_eq_false_iff_ne]
      intro (h : wordKind s.text = .lexError)
      have hisWord := isWord_wordKind s.text
      rw [h] at hisWord
      cases hisWord
    simp [close, hword]
  | error type =>
    have htype : (s.errorToken type).errorType? = type :=
      Attributes.errorType?_ofErrorType type
    have hlogged : (s.complain type).events = s.events.push (.ofToken (s.errorToken type)) := by
      rw [Event.ofToken, htype]
      rfl
    rw [close, hlogged, Array.toList_push]
    rfl

/-- Asking for the next token logs exactly that token, if it is malformed. -/
lemma events_nextToken (s : Session) :
    s.nextToken.2.events.toList =
      s.events.toList ++ ([s.nextToken.1].filter Token.isError).map .ofToken :=
  events_close _ (Scan.next_verdict_ne_lexError _ _)

/-- Reading to the end logs the malformed ones among the tokens that it reads, in their order. -/
lemma exists_events_drain (tokens : Array Token) (s : Session) :
    ∃ read, (s.drain tokens).1.toList = tokens.toList ++ read ∧
      (s.drain tokens).2.events.toList =
        s.events.toList ++ (read.filter Token.isError).map .ofToken := by
  fun_induction drain tokens s with
  | case1 tokens s r hend =>
    exact ⟨[r.1], Array.toList_push, s.events_nextToken⟩
  | case2 tokens s r hmore ih =>
    obtain ⟨read, htokens, hevents⟩ := ih
    have hfirst : r.2.events.toList = _ := s.events_nextToken
    refine ⟨r.1 :: read, ?_, ?_⟩
    · rw [htokens, Array.toList_push, List.append_assoc, List.singleton_append]
    · rw [hevents, hfirst, List.append_assoc, ← List.map_append, ← List.filter_append,
        List.singleton_append]

variable {s : Session} {passed rest : Text}

/-- Reading to the end leaves the cursor behind the whole text. -/
lemma cursor_drain (tokens : Array Token) (hs : s.cursor = .behind passed rest) :
    (s.drain tokens).2.cursor = .behind (passed ++ rest) [] := by
  fun_induction drain tokens s generalizing passed rest
  case case1 tokens s r hend =>
    obtain rfl := (nextToken_isEof_iff_of_behind hs).mp hend
    have hcursor : r.2.cursor = _ := cursor_nextToken_eq_behind hs
    simpa using hcursor
  case case2 tokens s r hmore ih =>
    rw [ih (cursor_nextToken_eq_behind hs), List.append_assoc, text_first_append]

end Session

/-- The log of a text: its malformed tokens in order, and the summary of all of them. -/
lemma events_ofText (options : Options) (collector : Collector) (t : Text) :
    (Lexed.ofText options collector t).events =
      ((Lexed.ofText options collector t).tokens.filter Token.isError).map .ofToken ++
        [.tokenized (Lexed.ofText options collector t).tokens.length
          ((Lexed.ofText options collector t).tokens.countP Token.isError) t.length
          options.strictEscapes] := by
  obtain ⟨read, htokens, hevents⟩ :=
    Session.exists_events_drain #[] (.ofText options collector t)
  have hcursor := Session.cursor_drain (s := .ofText options collector t) #[]
    (Cursor.ofText_eq_behind t)
  rw [List.nil_append] at htokens hcursor
  simp only [Lexed.ofText, hevents, hcursor, htokens, Cursor.behind, Nat.add_sub_cancel,
    ← Array.length_toList]
  rfl

/-- The log of a text mirrors its tokens. There is one event for each malformed token, in the order
of the stream, and behind them one summary. Its number of tokens is the length of the stream, its
number of errors is the number of the events before it, and it names the number of all characters of
the text and whether escapes were checked. Nothing of this depends on whether diagnostics are asked
for, or on where they go. -/
theorem events_mirror_tokens (options : Options) (collector : Collector) (source : Text) :
    (∃ traces summary,
      (Lexed.ofText options collector source).events = traces ++ [summary] ∧
      List.Forall₂ Event.Traces
        ((Lexed.ofText options collector source).tokens.filter Token.isError) traces ∧
      summary.Summarizes (Lexed.ofText options collector source).tokens.length traces.length
        source.length options.strictEscapes) ∧
    ∀ (report : Bool) (collector' : Collector),
      (Lexed.ofText { options with report } collector' source).events =
        (Lexed.ofText options collector source).events := by
  constructor
  · refine ⟨_, _, events_ofText options collector source, ?_, ?_⟩
    · rw [List.forall₂_map_right_iff, List.forall₂_same]
      intro t ht
      obtain ⟨hmem, herror⟩ := List.mem_filter.mp ht
      rw [tokens_ofText] at hmem
      rcases exists_first_of_mem_place hmem with rfl | ⟨passed, rest, -, hrest, rfl⟩
      · cases herror
      · have hadmits := admits_first options.strictEscapes hrest
        obtain ⟨type, hv⟩ := (isError_token_iff hadmits _).mp herror
        exact Event.traces_ofToken hv _
    · rw [List.length_map, ← List.countP_eq_length_filter]
      exact ⟨rfl, rfl, rfl⟩
  · intro report collector'
    simp only [events_ofText, tokens_ofText]

/-- A number with a letter behind it and a string without an end. -/
example : (Lexed.ofText { report := false } .empty "42a \"é".toList).events =
    [.lexError 1 "42a".toList (some .invalidNumberFormat), .lexError 5 "\"é".toList none,
      .tokenized 4 2 6 false] := by
  decide +kernel

end EdnTokens
