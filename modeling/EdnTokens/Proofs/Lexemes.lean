import Mathlib.Tactic.Common
import EdnTokens.Lexer.Stream
import EdnTokens.Proofs.Cursor

/-!
# Lexemes

Reading a text splits it into lexemes: pieces of text with the verdicts of their scanners. How a
text is split does not depend on where it stands (`lexemes`). Places come in afterwards. Laying
lexemes out from an offset gives the tokens (`Lexeme.place`), laying them out behind a text gives
the diagnostics (`Lexeme.diagnosticsBehind`), and a session that reads to the end of its text leaves
exactly these (`tokens_ofText`, `diagnostics_ofText`).
-/

namespace EdnTokens

/-- A token in a text with `n` characters before it. -/
def Token.movedOn (n : Nat) (t : Token) : Token :=
  { t with start := t.start + n }

/-- A piece of a text with the verdict of the scanner that took it. -/
structure Lexeme where
  text : Text
  verdict : Verdict
  deriving DecidableEq

namespace Lexeme

/-! ### What becomes of a lexeme -/

/-- The kind of the token. -/
def kind (l : Lexeme) : TokenKind :=
  match l.verdict with
  | .token kind => kind
  | .word => Session.wordKind l.text
  | .error _ => .lexError

/-- The attributes of the token. -/
def attributes (l : Lexeme) : Attributes :=
  match l.verdict with
  | .error type => .ofErrorType type
  | _ => .empty

/-- The token at an offset. -/
def token (l : Lexeme) (start : Nat) : Token where
  kind := l.kind
  text := l.text
  start
  attributes := l.attributes

/-- The span that a text covers behind another one. -/
def spanBehind (passed text : Text) : Span where
  start := passed.length + 1
  stop := passed.length + 1 + text.length
  line := .ofNat passed.endPosition.line
  column := .ofNat passed.endPosition.column

/-- The diagnostic of a malformed lexeme behind a text. -/
def diagnostic? (l : Lexeme) (passed : Text) : Option Diagnostic :=
  match l.verdict with
  | .error type => some (.ofLexError type l.text (spanBehind passed l.text))
  | _ => none

/-- A diagnostic stands at the span of its lexeme. -/
lemma span_of_mem_diagnostic? {l : Lexeme} {passed : Text} {d : Diagnostic}
    (h : d ∈ (l.diagnostic? passed).toList) : d.span = spanBehind passed l.text := by
  obtain ⟨text, v⟩ := l
  cases v with
  | token kind => cases h
  | word => cases h
  | error type =>
    cases List.mem_singleton.mp h
    rfl

/-- The tokens of lexemes that follow each other from an offset on, and the end token. -/
def place (start : Nat) : List Lexeme → List Token
  | [] => [.eof start]
  | l :: ls => l.token start :: place (start + l.text.length) ls

/-- The diagnostics of lexemes that follow each other behind a text. -/
def diagnosticsBehind (passed : Text) : List Lexeme → List Diagnostic
  | [] => []
  | l :: ls => (l.diagnostic? passed).toList ++ diagnosticsBehind (passed ++ l.text) ls

/-- Placing lexemes does not change their texts. -/
lemma flatMap_text_place (start : Nat) (ls : List Lexeme) :
    (place start ls).flatMap Token.text = ls.flatMap Lexeme.text := by
  induction ls generalizing start with
  | nil => rfl
  | cons l ls ih => simp only [place, List.flatMap_cons, ih, token]

/-- Placed lexemes end with the end token, and every token before it is a lexeme. -/
lemma exists_place_eq_append (start : Nat) (ls : List Lexeme) :
    ∃ body, place start ls = body ++ [.eof (start + (ls.flatMap Lexeme.text).length)] ∧
      ∀ t ∈ body, ∃ l ∈ ls, ∃ offset, t = l.token offset := by
  induction ls generalizing start with
  | nil => exact ⟨[], by simp [place], by simp⟩
  | cons l ls ih =>
    obtain ⟨body, hbody, hmem⟩ := ih (start + l.text.length)
    refine ⟨l.token start :: body, ?_, ?_⟩
    · rw [place, hbody, List.flatMap_cons, List.length_append, Nat.add_assoc]
      rfl
    · intro t ht
      rcases List.mem_cons.mp ht with rfl | ht
      · exact ⟨l, List.mem_cons_self, start, rfl⟩
      · obtain ⟨l', hl', offset, rfl⟩ := hmem t ht
        exact ⟨l', List.mem_cons_of_mem l hl', offset, rfl⟩

/-- Every lexeme becomes one token, and the end token comes to them. -/
lemma length_place (start : Nat) (ls : List Lexeme) : (place start ls).length = ls.length + 1 := by
  induction ls generalizing start with
  | nil => rfl
  | cons l ls ih => rw [place, List.length_cons, ih, List.length_cons]

/-- There is always an end token. -/
lemma place_ne_nil (start : Nat) (ls : List Lexeme) : place start ls ≠ [] := by
  cases ls <;> exact List.cons_ne_nil _ _

/-- Lexemes behind others are placed where those end, in the stead of their end token. -/
lemma place_append (start : Nat) (xs ys : List Lexeme) :
    place start (xs ++ ys) =
      (place start xs).dropLast ++ place (start + (xs.flatMap Lexeme.text).length) ys := by
  induction xs generalizing start with
  | nil => simp [place]
  | cons l xs ih =>
    rw [List.cons_append, place, ih, place, List.dropLast_cons_of_ne_nil (place_ne_nil _ _),
      List.cons_append, List.flatMap_cons, List.length_append, Nat.add_assoc]

/-- Lexemes placed further on are the same tokens moved on. -/
lemma place_add (start n : Nat) (ls : List Lexeme) :
    place (start + n) ls = (place start ls).map (Token.movedOn n) := by
  induction ls generalizing start with
  | nil => rfl
  | cons l ls ih =>
    have hstart : start + n + l.text.length = start + l.text.length + n := by omega
    rw [place, place, List.map_cons, hstart, ih]
    rfl

/-- Lexemes behind others emit their diagnostics behind the text of those. -/
lemma diagnosticsBehind_append (passed : Text) (xs ys : List Lexeme) :
    diagnosticsBehind passed (xs ++ ys) =
      diagnosticsBehind passed xs ++ diagnosticsBehind (passed ++ xs.flatMap Lexeme.text) ys := by
  induction xs generalizing passed with
  | nil => simp [diagnosticsBehind]
  | cons l xs ih =>
    simp only [List.cons_append, diagnosticsBehind, ih, List.flatMap_cons, List.append_assoc]

/-- The tokens from an index on are the lexemes from there on, placed behind the ones before. -/
lemma drop_place (start : Nat) {ls : List Lexeme} {i : Nat} (hi : i ≤ ls.length) :
    (place start ls).drop i =
      place (start + ((ls.take i).flatMap Lexeme.text).length) (ls.drop i) := by
  induction i generalizing start ls with
  | zero => simp
  | succ i ih =>
    cases ls with
    | nil => simp at hi
    | cons l ls =>
      have hi' : i ≤ ls.length := Nat.le_of_succ_le_succ hi
      rw [place, List.drop_succ_cons, ih _ hi', List.take_succ_cons, List.drop_succ_cons,
        List.flatMap_cons, List.length_append, Nat.add_assoc]

/-- A token before the end token is the lexeme with its index, placed behind the lexemes before. -/
lemma getElem?_place (start : Nat) {ls : List Lexeme} {i : Nat} (hi : i < ls.length) :
    (place start ls)[i]? =
      some (ls[i].token (start + ((ls.take i).flatMap Lexeme.text).length)) := by
  rw [← List.head?_drop, drop_place start hi.le, List.drop_eq_getElem_cons hi, place,
    List.head?_cons]

/-- A token that is not the end token has the index of a lexeme. -/
lemma lt_length_of_getElem?_place {start : Nat} {ls : List Lexeme} {i : Nat} {t : Token}
    (h : (place start ls)[i]? = some t) (ht : t.isEof = false) : i < ls.length := by
  obtain ⟨hlt, -⟩ := List.getElem?_eq_some_iff.mp h
  rw [length_place] at hlt
  by_contra hge
  obtain rfl : i = ls.length := by omega
  rw [← List.head?_drop, drop_place start le_rfl, List.drop_length, place, List.head?_cons] at h
  cases h
  cases ht

/-! ### Splitting a text -/

/-- The first lexeme of a text. -/
def first (strict : Bool) (t : Text) : Lexeme where
  text := t.take (Scan.next strict t).width
  verdict := (Scan.next strict t).verdict

/-- The first lexeme of a text that is not empty takes some of it. -/
lemma text_first_ne_nil (strict : Bool) {t : Text} (h : t ≠ []) : (first strict t).text ≠ [] := by
  obtain ⟨c, t, rfl⟩ := List.exists_cons_of_ne_nil h
  have hpos := Scan.next_width_pos strict c t
  rw [first, Ne, List.take_eq_nil_iff]
  rintro (hzero | hnil)
  · omega
  · exact h hnil

/-- Only the end of a text has the kind of the end. -/
lemma kind_first_ne_eof (strict : Bool) {t : Text} (h : t ≠ []) :
    (first strict t).kind ≠ .eof := by
  have hverdict : (Scan.next strict t).verdict ≠ .token .eof := by
    rwa [Ne, Scan.next_verdict_eq_eof_iff]
  simp only [kind, first]
  split
  · rename_i k hk
    rintro rfl
    exact hverdict hk
  · exact Session.kind_wordKind_ne_eof _
  · simp

/-- At the end of a text stands the lexeme of the end. -/
@[simp] lemma first_nil (strict : Bool) : first strict [] = ⟨[], .token .eof⟩ := rfl

/-- The first lexeme of a text and what is left of it make up the text. -/
lemma text_first_append (strict : Bool) (t : Text) :
    (first strict t).text ++ t.drop (first strict t).text.length = t := by
  have htake : (first strict t).text <+: t := List.take_prefix _ t
  exact List.prefix_iff_eq_append.mp htake

end Lexeme

open Lexeme

/-- The lexemes of a text. -/
def lexemes (strict : Bool) : Text → List Lexeme
  | [] => []
  | c :: t =>
    first strict (c :: t) ::
      lexemes strict ((c :: t).drop (first strict (c :: t)).text.length)
termination_by t => t.length
decreasing_by
  have hpos := List.length_pos_iff.mpr (text_first_ne_nil strict (List.cons_ne_nil c t))
  simp only [List.length_drop, List.length_cons]
  omega

/-- The empty text has no lexemes. -/
@[simp] lemma lexemes_nil (strict : Bool) : lexemes strict [] = [] := by
  rw [lexemes]

/-- A text that is not empty has its first lexeme, and those of what is left. -/
lemma lexemes_of_ne_nil (strict : Bool) {t : Text} (h : t ≠ []) :
    lexemes strict t =
      first strict t :: lexemes strict (t.drop (first strict t).text.length) := by
  obtain ⟨c, t, rfl⟩ := List.exists_cons_of_ne_nil h
  rw [lexemes]

/-- What holds of the first lexeme of every text that is not empty holds of all lexemes. -/
lemma forall_mem_lexemes {strict : Bool} {p : Lexeme → Prop}
    (h : ∀ t, t ≠ [] → p (first strict t)) (t : Text) : ∀ l ∈ lexemes strict t, p l := by
  fun_induction lexemes strict t with
  | case1 => simp
  | case2 c t ih =>
    intro l hl
    rcases List.mem_cons.mp hl with rfl | hl
    · exact h _ (List.cons_ne_nil c t)
    · exact ih l hl

/-- The lexemes of a text make up the text. -/
lemma flatMap_text_lexemes (strict : Bool) (t : Text) :
    (lexemes strict t).flatMap Lexeme.text = t := by
  fun_induction lexemes strict t with
  | case1 => rfl
  | case2 c t ih => rw [List.flatMap_cons, ih, text_first_append]

/-- Every token of a text but the end token is the first lexeme of the text that lies ahead of its
start. -/
lemma exists_first_of_mem_place {strict : Bool} {t : Text} {start : Nat} {token : Token}
    (h : token ∈ place start (lexemes strict t)) :
    token = .eof (start + t.length) ∨
      ∃ passed rest, t = passed ++ rest ∧ rest ≠ [] ∧
        token = (first strict rest).token (start + passed.length) := by
  fun_induction lexemes strict t generalizing start with
  | case1 =>
    rw [place, List.mem_singleton] at h
    exact Or.inl h
  | case2 c t ih =>
    rw [place, List.mem_cons] at h
    rcases h with rfl | h
    · exact Or.inr ⟨[], c :: t, rfl, List.cons_ne_nil c t, rfl⟩
    · have happend := text_first_append strict (c :: t)
      have hlength := congrArg List.length happend
      rw [List.length_append] at hlength
      rcases ih h with rfl | ⟨passed, rest, hrest, hne, rfl⟩
      · left
        rw [← hlength, Nat.add_assoc]
      · right
        refine ⟨(first strict (c :: t)).text ++ passed, rest, ?_, hne, ?_⟩
        · rw [List.append_assoc, ← hrest, happend]
        · rw [List.length_append, Nat.add_assoc]

/-- The tokens of a text end with the end token. No other one is of its kind, and the texts of the
others make up the text. -/
lemma exists_place_lexemes_eq_concat (strict : Bool) (t : Text) :
    ∃ body, place 1 (lexemes strict t) = body ++ [.eof (t.length + 1)] ∧
      (∀ token ∈ body, token.isEof = false) ∧ body.flatMap Token.text = t := by
  have hkinds : ∀ l ∈ lexemes strict t, l.kind ≠ .eof :=
    forall_mem_lexemes (fun _ hu => kind_first_ne_eof strict hu) t
  obtain ⟨body, hbody, hmem⟩ := exists_place_eq_append 1 (lexemes strict t)
  rw [flatMap_text_lexemes, Nat.add_comm] at hbody
  refine ⟨body, hbody, ?_, ?_⟩
  · intro token htoken
    obtain ⟨l, hl, offset, rfl⟩ := hmem token htoken
    exact beq_eq_false_iff_ne.mpr (hkinds l hl)
  · have htexts := flatMap_text_place 1 (lexemes strict t)
    rw [hbody, flatMap_text_lexemes, List.flatMap_append] at htexts
    simpa [Token.eof] using htexts

/-! ### Sessions read lexemes -/

namespace Session

variable {s : Session} {passed between rest : Text}

/-- What lies ahead of a session is what lies ahead of its cursor. -/
lemma rest_cursor (hs : s.cursor = .behind passed rest) : s.cursor.rest = rest := by
  rw [hs]
  rfl

/-- Closing the current token gives its text and the verdict as a token at its start. -/
lemma fst_close (s : Session) (v : Verdict) :
    (s.close v).1 = (⟨s.text, v⟩ : Lexeme).token s.start.position := by
  cases v <;> rfl

@[simp] lemma options_close (s : Session) (v : Verdict) : (s.close v).2.options = s.options := by
  cases v <;> rfl

@[simp] lemma start_close (s : Session) (v : Verdict) : (s.close v).2.start = s.start := by
  cases v <;> rfl

/-- The current token began behind `passed` and has taken `between`, so that `rest` lies ahead. -/
structure Covers (s : Session) (passed between rest : Text) : Prop where
  start : s.start = .behind passed (between ++ rest)
  cursor : s.cursor = .behind (passed ++ between) rest

/-- A token that begins has taken nothing yet. -/
lemma covers_begin (hs : s.cursor = .behind passed rest) : s.begin.Covers passed [] rest where
  start := hs
  cursor := by
    rw [List.append_nil]
    exact hs

namespace Covers

/-- Moving on adds what is passed to the current token. -/
lemma advanceBy (h : s.Covers passed between rest) (n : Nat) :
    (s.advanceBy n).Covers passed (between ++ rest.take n) (rest.drop n) where
  start := by
    rw [List.append_assoc, List.take_append_drop]
    exact h.start
  cursor := by
    rw [← List.append_assoc, ← Cursor.advanceBy_behind, ← h.cursor]
    rfl

/-- The text of the current token is what it has taken. -/
lemma text (h : s.Covers passed between rest) : s.text = between := by
  simp [Session.text, h.start, h.cursor, Cursor.behind]

/-- It is also the slice of the source between the bytes at which the token and the cursor stand. -/
lemma sliceFrom? (h : s.Covers passed between rest) :
    s.cursor.sliceFrom? s.start.offset = some between := by
  rw [h.start, h.cursor]
  exact Cursor.sliceFrom?_behind passed between rest

/-- The span of the current token is that of what it has taken. -/
lemma span (h : s.Covers passed between rest) : s.span = spanBehind passed between := by
  simp only [Session.span, h.start, h.cursor, Cursor.behind, spanBehind, List.length_append]
  congr 1
  omega

/-- A scan adds what it takes to the current token. -/
lemma perform (h : s.Covers passed between rest) (scan : Scan) :
    (s.perform scan).2.Covers passed (between ++ rest.take scan.width) (rest.drop scan.width) where
  start := by
    rw [Session.perform, start_close]
    exact (h.advanceBy scan.width).start
  cursor := by
    rw [Session.perform, cursor_close]
    exact (h.advanceBy scan.width).cursor

/-- The token that a scan closes is the lexeme of all that was taken. -/
lemma fst_perform (h : s.Covers passed between rest) (scan : Scan) :
    (s.perform scan).1 =
      (⟨between ++ rest.take scan.width, scan.verdict⟩ : Lexeme).token (passed.length + 1) := by
  have hmoved := h.advanceBy scan.width
  rw [Session.perform, fst_close, hmoved.text, hmoved.start]
  rfl

/-- A scan emits the diagnostic of that lexeme, if it is malformed and the options ask for a
report. -/
lemma diagnostics_perform (h : s.Covers passed between rest) (scan : Scan) :
    (s.perform scan).2.collector.diagnostics = s.collector.diagnostics ++
      if s.options.report then
        ((⟨between ++ rest.take scan.width, scan.verdict⟩ : Lexeme).diagnostic? passed).toList
      else [] := by
  have hmoved := h.advanceBy scan.width
  rw [Session.perform]
  cases scan.verdict with
  | token kind => simp [close, Session.advanceBy, diagnostic?]
  | word => simp [close, Session.advanceBy, diagnostic?]
  | error type =>
    simp only [close, complain, hmoved.text, hmoved.span, diagnostic?]
    by_cases hreport : s.options.report = true
    · simp [Session.advanceBy, hreport]
    · simp [Session.advanceBy, hreport]

end Covers

/-- The next token is the first lexeme of the text ahead, placed at the cursor. -/
lemma fst_nextToken (hs : s.cursor = .behind passed rest) :
    s.nextToken.1 = (first s.options.strictEscapes rest).token (passed.length + 1) := by
  rw [nextToken, (covers_begin hs).fst_perform, rest_cursor hs]
  rfl

/-- Reading a token leaves the options as they are. -/
@[simp] lemma options_nextToken (s : Session) : s.nextToken.2.options = s.options := by
  rw [nextToken, perform, options_close]
  rfl

/-- The next token moves the cursor behind the first lexeme of the text ahead. -/
lemma cursor_nextToken_eq_behind (hs : s.cursor = .behind passed rest) :
    s.nextToken.2.cursor =
      .behind (passed ++ (first s.options.strictEscapes rest).text)
        (rest.drop (first s.options.strictEscapes rest).text.length) := by
  rw [cursor_nextToken, rest_cursor hs, hs, Cursor.advanceBy_behind]
  congr 1
  rw [← List.append_cancel_left_eq (rest.take _), List.take_append_drop]
  exact (text_first_append _ rest).symm

/-- The next token emits the diagnostic of the first lexeme of the text ahead, if that is malformed
and the options ask for a report. -/
lemma diagnostics_nextToken (hs : s.cursor = .behind passed rest) :
    s.nextToken.2.collector.diagnostics = s.collector.diagnostics ++
      if s.options.report then
        ((first s.options.strictEscapes rest).diagnostic? passed).toList
      else [] := by
  rw [nextToken, (covers_begin hs).diagnostics_perform, rest_cursor hs]
  rfl

/-- The end token is read where nothing lies ahead. -/
lemma nextToken_isEof_iff_of_behind (hs : s.cursor = .behind passed rest) :
    s.nextToken.1.isEof = true ↔ rest = [] := by
  rw [nextToken_isEof_iff, hs]
  rfl

/-- Reading to the end gives the lexemes of the text ahead, placed at the cursor. -/
lemma fst_drain (tokens : Array Token) (hs : s.cursor = .behind passed rest) :
    (s.drain tokens).1.toList =
      tokens.toList ++ place (passed.length + 1) (lexemes s.options.strictEscapes rest) := by
  fun_induction drain tokens s generalizing passed rest
  case case1 tokens s r hend =>
    have hrest := (nextToken_isEof_iff_of_behind hs).mp hend
    subst hrest
    have htoken : r.1 = _ := fst_nextToken hs
    rw [Array.toList_push, lexemes_nil, place, htoken]
    rfl
  case case2 tokens s r hmore ih =>
    have hrest : rest ≠ [] := fun h => hmore ((nextToken_isEof_iff_of_behind hs).mpr h)
    have htoken : r.1 = _ := fst_nextToken hs
    have hoptions : r.2.options = s.options := options_nextToken s
    rw [ih (cursor_nextToken_eq_behind hs), hoptions, Array.toList_push, lexemes_of_ne_nil _ hrest,
      place, htoken]
    simp only [List.length_append, List.append_assoc, List.singleton_append]
    congr 3
    omega

/-- Reading to the end adds the diagnostics of the lexemes ahead. -/
lemma diagnostics_drain (tokens : Array Token) (hs : s.cursor = .behind passed rest) :
    (s.drain tokens).2.collector.diagnostics = s.collector.diagnostics ++
      if s.options.report then
        diagnosticsBehind passed (lexemes s.options.strictEscapes rest)
      else [] := by
  fun_induction drain tokens s generalizing passed rest
  case case1 tokens s r hend =>
    have hrest := (nextToken_isEof_iff_of_behind hs).mp hend
    subst hrest
    have hemitted : r.2.collector.diagnostics = _ := diagnostics_nextToken hs
    rw [hemitted]
    simp [diagnostic?, diagnosticsBehind]
  case case2 tokens s r hmore ih =>
    have hrest : rest ≠ [] := fun h => hmore ((nextToken_isEof_iff_of_behind hs).mpr h)
    have hemitted : r.2.collector.diagnostics = _ := diagnostics_nextToken hs
    have hoptions : r.2.options = s.options := options_nextToken s
    rw [ih (cursor_nextToken_eq_behind hs), hoptions, lexemes_of_ne_nil _ hrest, hemitted,
      List.append_assoc]
    by_cases hreport : s.options.report = true
    · simp [hreport, diagnosticsBehind]
    · simp [hreport]

end Session

/-- The tokens of a text are its lexemes, placed from offset one on. -/
lemma tokens_ofText (options : Options) (collector : Collector) (t : Text) :
    (Lexed.ofText options collector t).tokens = place 1 (lexemes options.strictEscapes t) := by
  have h := Session.fst_drain (s := .ofText options collector t) #[] (Cursor.ofText_eq_behind t)
  simpa [Lexed.ofText, Session.ofText] using h

/-- The diagnostics of a text are those of its lexemes, added to what the collector held. -/
lemma diagnostics_ofText (options : Options) (collector : Collector) (t : Text) :
    (Lexed.ofText options collector t).collector.diagnostics = collector.diagnostics ++
      if options.report then diagnosticsBehind [] (lexemes options.strictEscapes t) else [] := by
  exact Session.diagnostics_drain (s := .ofText options collector t) #[]
    (Cursor.ofText_eq_behind t)

end EdnTokens
