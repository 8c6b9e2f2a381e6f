import EdnTokens.Proofs.Grammar

/-!
# Pulling tokens

A session can be asked for one token or for several, for the end token or only for others, and all
of this in any order. It reads one and the same stream (`pulls_ofText`).

Whatever it is asked for, a session does nothing but take its next token again and again
(`Session.Yields`). So it is enough to know what one token does. Before the end it adds one lexeme
to those that were read (`Session.HasRead`), and at the end it leaves the cursor and the collector
as they are.
-/

namespace EdnTokens

open Lexeme

/-! ### Ways to pull -/

/-- A way to ask a session for tokens. -/
inductive Pull
  /-- The next token, be it the end token. -/
  | nextToken
  /-- The next token, unless it is the end token. -/
  | next
  /-- Up to `n` tokens other than the end token. -/
  | take (n : Nat)
  /-- All tokens that are left, except the end token. -/
  | rest
  deriving DecidableEq, Repr

/-- What a session answers. -/
structure Answer where
  tokens : List Token
  /-- Whether the session met the end of the text. -/
  ended : Bool
  deriving DecidableEq

/-- The tokens in answers, apart from end tokens. -/
def Answer.read (answers : List Answer) : List Token :=
  (answers.flatMap Answer.tokens).filter fun t => !t.isEof

/-- The diagnostic of a malformed token of a text. -/
def Diagnostic.ofToken (source : Text) (t : Token) : Diagnostic :=
  let position := (Lines.ofText source).position t.start
  .ofLexError t.errorType? t.text {
    start := t.start
    stop := t.start + t.length
    line := .ofNat position.line
    column := .ofNat position.column }

namespace Session

/-- Asks for tokens once. -/
def pull (s : Session) : Pull → Answer × Session
  | .nextToken =>
    let (token, s) := s.nextToken
    (⟨[token], token.isEof⟩, s)
  | .next =>
    let (token?, s) := s.next?
    (⟨token?.toList, token?.isNone⟩, s)
  | .take n =>
    let (tokens, s) := s.take n
    (⟨tokens, tokens.length < n⟩, s)
  | .rest =>
    let (tokens, s) := s.remaining
    (⟨tokens, true⟩, s)

/-- Asks for tokens again and again. -/
def pulls (s : Session) : List Pull → List Answer × Session
  | [] => ([], s)
  | p :: ps =>
    let (answer, s) := s.pull p
    let (answers, s) := s.pulls ps
    (answer :: answers, s)

/-! ### Token after token -/

/-- Taking the next token some number of times leads from one session to another. The tokens on the
way are listed without end tokens, and the flag tells whether there were any of these. -/
inductive Yields : Session → List Token → Bool → Session → Prop
  | done (s : Session) : Yields s [] false s
  | token {s s' : Session} {ts : List Token} {ended : Bool} (h : s.nextToken.1.isEof = false)
      (hs : Yields s.nextToken.2 ts ended s') : Yields s (s.nextToken.1 :: ts) ended s'
  | eof {s s' : Session} {ts : List Token} {ended : Bool} (h : s.nextToken.1.isEof = true)
      (hs : Yields s.nextToken.2 ts ended s') : Yields s ts true s'

variable {s s' : Session} {ts : List Token} {ended : Bool}

/-- What two sessions yield one after the other is what both yield. -/
lemma Yields.trans {s'' : Session} {us : List Token} {ended' : Bool} (h : Yields s ts ended s')
    (h' : Yields s' us ended' s'') : Yields s (ts ++ us) (ended || ended') s'' := by
  induction h with
  | done s => exact h'
  | token h _ ih => exact .token h (ih h')
  | eof h _ ih => exact .eof h (ih h')

/-- No end token is listed. -/
lemma Yields.isEof_eq_false (h : Yields s ts ended s') : ∀ t ∈ ts, t.isEof = false := by
  induction h with
  | done s => simp
  | token h _ ih =>
    intro t ht
    rcases List.mem_cons.mp ht with rfl | ht
    · exact h
    · exact ih t ht
  | eof _ _ ih => exact ih

/-- So leaving out end tokens leaves out nothing. -/
lemma Yields.filter (h : Yields s ts ended s') :
    Yields s (ts.filter fun t => !t.isEof) ended s' := by
  have hall : ts.filter (fun t => !t.isEof) = ts := by
    rw [List.filter_eq_self]
    intro t ht
    rw [h.isEof_eq_false t ht]
    rfl
  rw [hall]
  exact h

/-- The next token is listed, unless it is the end token, and then it is noted. -/
lemma yields_nextToken (s : Session) :
    Yields s ([s.nextToken.1].filter fun t => !t.isEof) s.nextToken.1.isEof s.nextToken.2 := by
  by_cases h : s.nextToken.1.isEof = true
  · simpa [h] using Yields.eof h (.done s.nextToken.2)
  · have h' : s.nextToken.1.isEof = false := Bool.eq_false_iff.mpr h
    simpa [h'] using Yields.token h' (.done s.nextToken.2)

/-- Iteration gives the next token, or nothing in place of the end token. -/
lemma yields_next? (s : Session) : Yields s s.next?.1.toList s.next?.1.isNone s.next?.2 := by
  have hyields := yields_nextToken s
  by_cases h : s.nextToken.1.isEof = true
  · simpa [next?, h] using hyields
  · simpa [next?, h] using hyields

/-- A number of tokens are that many next ones. There are fewer only if the end was met. -/
lemma yields_take (s : Session) (n : Nat) :
    Yields s (s.take n).1 (decide ((s.take n).1.length < n)) (s.take n).2 := by
  induction n generalizing s with
  | zero => exact .done s
  | succ n ih =>
    have hnext := yields_next? s
    unfold take
    split
    · rename_i s' heq
      simpa [heq] using hnext
    · rename_i t s' heq
      rw [heq] at hnext
      simpa using hnext.trans (ih s')

/-- Reading to the end takes one token after the other up to an end token. -/
lemma exists_yields_drain (tokens : Array Token) (s : Session) :
    ∃ ts last, (s.drain tokens).1.toList = tokens.toList ++ ts ++ [last] ∧
      Yields s ts true (s.drain tokens).2 := by
  fun_induction drain tokens s with
  | case1 tokens s r hend => exact ⟨[], r.1, by simp, .eof hend (.done r.2)⟩
  | case2 tokens s r hmore ih =>
    obtain ⟨ts, last, htokens, hyields⟩ := ih
    refine ⟨r.1 :: ts, last, ?_, .token (by simpa using hmore) hyields⟩
    rw [htokens]
    simp

/-- Collecting what is left meets the end. -/
lemma yields_remaining (s : Session) : Yields s s.remaining.1 true s.remaining.2 := by
  obtain ⟨ts, last, htokens, hyields⟩ := exists_yields_drain #[] s
  have hremaining : s.remaining.1 = ts := by
    simp [remaining, htokens]
  rw [hremaining]
  exact hyields

/-- Every way to ask for tokens takes the next token again and again. -/
lemma yields_pull (s : Session) (p : Pull) :
    Yields s ((s.pull p).1.tokens.filter fun t => !t.isEof) (s.pull p).1.ended (s.pull p).2 := by
  cases p with
  | nextToken => exact yields_nextToken s
  | next => exact (yields_next? s).filter
  | take n => exact (yields_take s n).filter
  | rest => exact (yields_remaining s).filter

/-- However often and in whichever ways a session is asked, it takes one token after the other. -/
lemma yields_pulls (s : Session) (ps : List Pull) :
    Yields s (Answer.read (s.pulls ps).1) ((s.pulls ps).1.any Answer.ended) (s.pulls ps).2 := by
  induction ps generalizing s with
  | nil => exact .done s
  | cons p ps ih =>
    have hyields := (yields_pull s p).trans (ih (s.pull p).2)
    rw [Answer.read, ← List.filter_append] at hyields
    exact hyields

/-! ### The end of the text -/

/-- At the end the next token is the end token, and only the beginning of the current token
moves. -/
lemma nextToken_of_rest_eq_nil (h : s.cursor.rest = []) :
    s.nextToken = (.eof s.cursor.position, s.begin) := by
  have htext : s.begin.text = [] := by simp [text, begin]
  rw [nextToken, h]
  simp only [Scan.next, perform, advanceBy, Cursor.advanceBy, close, token, Token.eof]
  rw [← htext]
  rfl

/-- At the end nothing is left to yield. -/
lemma Yields.eq_of_rest_eq_nil (h : Yields s ts ended s') (hrest : s.cursor.rest = []) :
    s'.cursor = s.cursor ∧ s'.collector = s.collector := by
  induction h with
  | done s => exact ⟨rfl, rfl⟩
  | @token s _ _ _ h _ _ =>
    rw [(nextToken_isEof_iff s).mpr hrest] at h
    cases h
  | eof h _ ih =>
    rw [nextToken_of_rest_eq_nil hrest] at ih
    exact ih hrest

/-- An end token only comes at the end. -/
lemma Yields.rest_eq_nil (h : Yields s ts ended s') (hended : ended = true) :
    s'.cursor.rest = [] := by
  induction h with
  | done s => cases hended
  | token _ _ ih => exact ih hended
  | @eof s s' _ _ h hs ih =>
    have hrest : s.cursor.rest = [] := (nextToken_isEof_iff s).mp h
    rw [nextToken_of_rest_eq_nil hrest] at hs
    rw [(hs.eq_of_rest_eq_nil hrest).1]
    exact hrest

/-! ### Lexeme after lexeme -/

/-- A session that began at the beginning of a text has read the lexemes `before` of that text. It
stands behind them and has emitted their diagnostics. -/
structure HasRead (options : Options) (collector : Collector) (source : Text)
    (before : List Lexeme) (s : Session) : Prop where
  options_eq : s.options = options
  cursor_eq : s.cursor = .behind (before.flatMap Lexeme.text) s.cursor.rest
  lexemes_eq : lexemes options.strictEscapes source =
    before ++ lexemes options.strictEscapes s.cursor.rest
  diagnostics_eq : s.collector.diagnostics = collector.diagnostics ++
    if options.report then diagnosticsBehind [] before else []

variable {options : Options} {collector : Collector} {source : Text} {before : List Lexeme}

/-- At the beginning of a text no lexeme has been read. -/
lemma hasRead_ofText (options : Options) (collector : Collector) (source : Text) :
    HasRead options collector source [] (.ofText options collector source) where
  options_eq := rfl
  cursor_eq := rfl
  lexemes_eq := rfl
  diagnostics_eq := by simp [ofText, diagnosticsBehind]

/-- As long as something lies ahead, the next token adds the first lexeme of that. -/
lemma HasRead.nextToken (h : HasRead options collector source before s)
    (hrest : s.cursor.rest ≠ []) :
    HasRead options collector source
      (before ++ [first options.strictEscapes s.cursor.rest]) s.nextToken.2 := by
  have hcursor := cursor_nextToken_eq_behind h.cursor_eq
  rw [h.options_eq] at hcursor
  refine ⟨(options_nextToken s).trans h.options_eq, ?_, ?_, ?_⟩
  · rw [hcursor, List.flatMap_append, List.flatMap_singleton]
    rfl
  · rw [h.lexemes_eq, lexemes_of_ne_nil _ hrest, hcursor, List.append_assoc]
    rfl
  · rw [diagnostics_nextToken h.cursor_eq, h.options_eq, h.diagnostics_eq, diagnosticsBehind_append,
      List.append_assoc]
    by_cases hreport : options.report = true
    · simp [hreport, diagnosticsBehind]
    · simp [hreport]

/-- The tokens that a session yields are the next lexemes, placed behind those read before. -/
lemma HasRead.yields (h : HasRead options collector source before s) (hy : Yields s ts ended s') :
    ∃ new, HasRead options collector source (before ++ new) s' ∧
      ts = (place ((before.flatMap Lexeme.text).length + 1) new).dropLast := by
  induction hy generalizing before with
  | done s => exact ⟨[], by rwa [List.append_nil], rfl⟩
  | @token s s' ts ended hmore _ ih =>
    have hrest : s.cursor.rest ≠ [] := by
      rw [Ne, ← nextToken_isEof_iff s, hmore]
      exact Bool.false_ne_true
    obtain ⟨new, hread, hts⟩ := ih (h.nextToken hrest)
    refine ⟨first options.strictEscapes s.cursor.rest :: new, ?_, ?_⟩
    · rwa [List.append_assoc, List.singleton_append] at hread
    · rw [fst_nextToken h.cursor_eq, h.options_eq, hts, place,
        List.dropLast_cons_of_ne_nil (place_ne_nil _ _), List.flatMap_append,
        List.flatMap_singleton, List.length_append, Nat.add_right_comm]
  | @eof s s' ts ended hend _ ih =>
    rw [nextToken_of_rest_eq_nil ((nextToken_isEof_iff s).mp hend)] at ih
    exact ih ⟨h.options_eq, h.cursor_eq, h.lexemes_eq, h.diagnostics_eq⟩

end Session

/-! ### Diagnostics of tokens -/

namespace Lexeme

variable {strict : Bool} {source passed rest : Text}

/-- What a lexeme emits is the diagnostic of its token, if that is malformed. -/
lemma toList_diagnostic? {l : Lexeme} (hadmits : l.verdict.Admits strict l.text)
    (hsource : source = passed ++ rest) :
    (l.diagnostic? passed).toList =
      ([l.token (passed.length + 1)].filter Token.isError).map (.ofToken source) := by
  by_cases herror : (l.token (passed.length + 1)).isError = true
  · obtain ⟨type, hv⟩ := (isError_token_iff hadmits _).mp herror
    have htype : (l.token (passed.length + 1)).errorType? = type := errorType?_token hv _
    have hposition : (Lines.ofText source).position (passed.length + 1) = passed.endPosition := by
      rw [hsource, Lines.position_append]
    rw [List.filter_cons_of_pos herror, List.filter_nil, List.map_singleton, Diagnostic.ofToken,
      htype]
    simp only [diagnostic?, hv, Option.toList_some, token, hposition, spanBehind, Token.length]
  · rw [List.filter_cons_of_neg herror, diagnostic?_eq_none hadmits herror]
    rfl

/-- What lexemes emit are the diagnostics of their malformed tokens. -/
lemma diagnosticsBehind_eq_map {ls : List Lexeme}
    (hadmits : ∀ l ∈ ls, l.verdict.Admits strict l.text)
    (hsource : source = passed ++ (ls.flatMap Lexeme.text ++ rest)) :
    diagnosticsBehind passed ls =
      ((place (passed.length + 1) ls).dropLast.filter Token.isError).map (.ofToken source) := by
  induction ls generalizing passed with
  | nil => rfl
  | cons l ls ih =>
    rw [List.flatMap_cons, List.append_assoc] at hsource
    have hfirst := toList_diagnostic? (hadmits l List.mem_cons_self) hsource
    have hsource' : source = (passed ++ l.text) ++ (ls.flatMap Lexeme.text ++ rest) := by
      rw [hsource, List.append_assoc]
    have hlater := ih (fun l' hl' => hadmits l' (List.mem_cons_of_mem l hl')) hsource'
    rw [List.length_append, Nat.add_right_comm] at hlater
    rw [diagnosticsBehind, hfirst, hlater, place,
      List.dropLast_cons_of_ne_nil (place_ne_nil _ _), ← List.map_append, ← List.filter_append,
      List.singleton_append]

end Lexeme

/-! ### The stream -/

/-- Pulling tokens in any way reads the stream of the text. The tokens other than the end token are
the first ones of the stream, and their diagnostics have been collected if the options ask for that.
After the end was met, or just reached, nothing changes any more: every next token is the same end
token, and there is no other one. -/
theorem pulls_ofText (options : Options) (collector : Collector) (source : Text) (ps : List Pull)
    (answers : List Answer) (s : Session)
    (h : (Session.ofText options collector source).pulls ps = (answers, s)) :
    Answer.read answers <+: (tokenizeWith options source).dropLast ∧
      s.collector.diagnostics = collector.diagnostics ++
        (if options.report then
          ((Answer.read answers).filter Token.isError).map (.ofToken source)
        else []) ∧
      ((∃ a ∈ answers, a.ended = true) ∨ s.cursor.atEnd = true →
        ∀ qs, (s.pulls qs).2.nextToken.1 = .eof (source.length + 1) ∧
          (s.pulls qs).2.next?.1 = none ∧
          (s.pulls qs).2.cursor = s.cursor ∧ (s.pulls qs).2.collector = s.collector) := by
  have hyields := Session.yields_pulls (.ofText options collector source) ps
  rw [h] at hyields
  -- whatever was asked for, the session has read a beginning of the lexemes of the text
  obtain ⟨before, hread, hplace⟩ : ∃ before, Session.HasRead options collector source before s ∧
      Answer.read answers = (place 1 before).dropLast :=
    (Session.hasRead_ofText options collector source).yields hyields
  have hsource : source = [] ++ (before.flatMap Lexeme.text ++ s.cursor.rest) := by
    have htext := flatMap_text_lexemes options.strictEscapes source
    rw [hread.lexemes_eq, List.flatMap_append, flatMap_text_lexemes] at htext
    exact htext.symm
  have hadmits : ∀ l ∈ before, l.verdict.Admits options.strictEscapes l.text := by
    intro l hl
    refine admits_of_mem_lexemes (t := source) ?_
    rw [hread.lexemes_eq]
    exact List.mem_append_left _ hl
  refine ⟨?_, ?_, ?_⟩
  · rw [tokenizeWith, tokens_ofText, hread.lexemes_eq, place_append,
      List.dropLast_append_of_ne_nil (place_ne_nil _ _), hplace]
    exact List.prefix_append _ _
  · rw [hread.diagnostics_eq, diagnosticsBehind_eq_map hadmits hsource, hplace]
    rfl
  · intro hend qs
    -- an end token is met only where nothing lies ahead, so both reasons come to the same
    have hrest : s.cursor.rest = [] := by
      rcases hend with ⟨a, ha, hended⟩ | hatEnd
      · exact hyields.rest_eq_nil (List.any_eq_true.mpr ⟨a, ha, hended⟩)
      · exact List.isEmpty_iff.mp hatEnd
    have hposition : s.cursor.position = source.length + 1 := by
      rw [hrest, List.append_nil, List.nil_append] at hsource
      rw [hread.cursor_eq, ← hsource]
      rfl
    obtain ⟨hcursor, hcollector⟩ := (Session.yields_pulls s qs).eq_of_rest_eq_nil hrest
    have hnext := Session.nextToken_of_rest_eq_nil (s := (s.pulls qs).2) (by rw [hcursor, hrest])
    rw [hcursor, hposition] at hnext
    refine ⟨congrArg Prod.fst hnext, ?_, hcursor, hcollector⟩
    simp only [Session.next?, hnext]
    rfl

/-- One token is asked for, then more than there are. Both malformed ones were reported then, and
asking for all that is left or for the next token changes nothing any more. -/
theorem pulls_ofText_mixed :
    ((Session.ofText {} .empty "42a \"x".toList).pulls [.next, .take 5]).1 =
        [⟨[.error "42a".toList 1 (some .invalidNumberFormat)], false⟩,
          ⟨[⟨.whitespace, [' '], 4, .empty⟩, .error "\"x".toList 5 none], true⟩] ∧
      ((Session.ofText {} .empty "42a \"x".toList).pulls
          [.next, .take 5]).2.collector.diagnostics =
        [.ofToken "42a \"x".toList (.error "42a".toList 1 (some .invalidNumberFormat)),
          .ofToken "42a \"x".toList (.error "\"x".toList 5 none)] ∧
      (((Session.ofText {} .empty "42a \"x".toList).pulls [.next, .take 5]).2.pulls
        [.rest, .nextToken]).2.nextToken.1 = .eof 7 := by
  have hanswers : ((Session.ofText {} .empty "42a \"x".toList).pulls [.next, .take 5]).1 =
      [⟨[.error "42a".toList 1 (some .invalidNumberFormat)], false⟩,
        ⟨[⟨.whitespace, [' '], 4, .empty⟩, .error "\"x".toList 5 none], true⟩] := by
    decide +kernel
  obtain ⟨-, hdiagnostics, hend⟩ := pulls_ofText {} .empty "42a \"x".toList [.next, .take 5] _ _
    (Prod.eta _).symm
  rw [hanswers] at hdiagnostics hend
  have hended := hend (Or.inl ⟨_, List.mem_cons_of_mem _ List.mem_cons_self, rfl⟩)
  exact ⟨hanswers, hdiagnostics, (hended [.rest, .nextToken]).1⟩

end EdnTokens
