import EdnTokens.Proofs.Grammar
import EdnTokens.Proofs.Lines

/-!
# Reports

The diagnostics that reading a text leaves behind are the reports of its malformed tokens: one for
each of them, in the order of the stream, and none for anything else
(`diagnostics_report_error_tokens`).

A diagnostic is made while its token is closed, from counters that the cursor carries along. Its
place in the file is found later by bisection in the line table. Both count the text before the
token, so they agree as long as the counters do not overflow. What the diagnostic says follows from
the error type of the token, and the error type from the language that the text of the token belongs
to; only a string that is never closed has none.
-/

namespace EdnTokens

open Character EdnTokens.Language Lexeme

/-! ### Error types -/

/-- The numbers of the codes of malformed input, by error type. A string that is never closed has a
number but no type. -/
def DiagnosticCode.numbers : List (Option ErrorType × Nat) :=
  [(some .invalidNumberFormat, 1001), (some .invalidKeyword, 1002), (some .invalidDispatch, 1003),
    (none, 1004), (some .unrecognizedCharacter, 1005), (some .invalidCharacterEscape, 1006)]

/-- Every error has a code of the letter E, also the one that has no type. -/
lemma DiagnosticCode.exists_ofErrorType_eq (type : Option ErrorType) :
    ∃ n, ofErrorType type = ⟨"E", n⟩ ∧ (type, n) ∈ numbers := by
  rcases type with _ | type
  · exact ⟨1004, rfl, by decide⟩
  · cases type with
    | invalidNumberFormat => exact ⟨1001, rfl, by decide⟩
    | invalidKeyword => exact ⟨1002, rfl, by decide⟩
    | invalidDispatch => exact ⟨1003, rfl, by decide⟩
    | unrecognizedCharacter => exact ⟨1005, rfl, by decide⟩
    | invalidCharacterEscape => exact ⟨1006, rfl, by decide⟩

/-- Every error type has another code than a string that is never closed. -/
lemma DiagnosticCode.ofErrorType_eq_open_iff (type : Option ErrorType) :
    ofErrorType type = ⟨"E", 1004⟩ ↔ type = none := by
  cases type with
  | none => exact iff_of_true rfl rfl
  | some type =>
    refine iff_of_false ?_ (by simp)
    cases type <;> decide

/-- The key of the error type is missing only where there is no error type. -/
lemma Attributes.get?_ofErrorType_eq_none_iff (type : Option ErrorType) :
    (ofErrorType type).get? errorTypeKey = none ↔ type = none := by
  rw [get?_ofErrorType, Option.map_eq_none_iff]

/-- Of all malformed texts exactly those without an error type begin with a quote. -/
lemma ErrorType.eq_none_iff_of_language {type : Option ErrorType} {t : Text}
    (h : ErrorType.Language type t) : type = none ↔ t.head? = some '"' := by
  match type with
  | none =>
    obtain ⟨body, rfl, -⟩ := h
    exact iff_of_true rfl rfl
  | some .invalidNumberFormat =>
    obtain ⟨w, d, rfl, hw, -, -⟩ := h
    obtain ⟨c, u, hcons, hstart⟩ := Scan.exists_isNumberStart_of_number hw [d]
    -- a number begins with a character that can continue a symbol, and a quote cannot
    have hrest := Scan.isSymbolRest_of_isNumberStart hstart
    refine iff_of_false (by simp) ?_
    rw [hcons, List.head?_cons, Option.some.injEq]
    rintro rfl
    exact absurd hrest (by decide)
  | some .invalidKeyword =>
    obtain rfl : t = _ := h
    exact iff_of_false (by simp) (by decide)
  | some .invalidDispatch =>
    refine iff_of_false (by simp) ?_
    rcases h with rfl | ⟨c, rest, rfl, -⟩
    · decide
    · simp
  | some .unrecognizedCharacter =>
    obtain ⟨c, rfl, -, -, -, -, hc⟩ := h
    refine iff_of_false (by simp) ?_
    rw [List.head?_cons, Option.some.injEq]
    rintro rfl
    exact absurd hc (by decide)
  | some .invalidCharacterEscape =>
    refine iff_of_false (by simp) ?_
    rcases h with ⟨u, rfl, -⟩ | ⟨u, rfl, -⟩
    · simp
    · simp

/-! ### What a diagnostic tells of a token -/

/-- The diagnostic reports the malformed token `t` of a file. It spans the token and places it where
the line table of the file does, it has the code of the error type, and its one note shows the text.
The code of an open string stands for a missing error type, and that for a quote at the
beginning. -/
structure Diagnostic.Reports (file : SourceFile) (t : Token) (d : Diagnostic) : Prop where
  start : d.span.start = t.start
  stop : d.span.stop = t.stop
  position : file.position t.start = ⟨d.span.line.toNat, d.span.column.toNat⟩
  code : ∃ n, d.code = some ⟨"E", n⟩ ∧ (t.errorType?, n) ∈ DiagnosticCode.numbers
  open_iff : d.code = some ⟨"E", 1004⟩ ↔ t.attributes.get? Attributes.errorTypeKey = none
  quote_iff : t.attributes.get? Attributes.errorTypeKey = none ↔ t.text.head? = some '"'
  notes : d.notes = ["found `".toList ++ Text.escape t.text ++ "`".toList]

/-- What a malformed lexeme emits reports its token. -/
lemma Lexeme.reports_token {file : SourceFile} {passed text rest : Text} {strict : Bool}
    {type : Option ErrorType} (hcontent : file.content = passed ++ (text ++ rest))
    (hlen : file.content.length < UInt32.size - 1)
    (hadmits : Verdict.Admits strict text (.error type)) :
    Diagnostic.Reports file ((⟨text, .error type⟩ : Lexeme).token (passed.length + 1))
      (.ofLexError type text (spanBehind passed text)) := by
  have hlength : passed.length + (text.length + rest.length) < UInt32.size - 1 := by
    simpa only [hcontent, List.length_append] using hlen
  have hpassed : passed.length < UInt32.size - 1 := by omega
  have htype : ((⟨text, .error type⟩ : Lexeme).token (passed.length + 1)).errorType? = type :=
    errorType?_token rfl _
  have hnone := Attributes.get?_ofErrorType_eq_none_iff type
  -- a text that does not overflow the line counter does not overflow the end of a span either
  have hsize : UInt32.size < UInt64.size := by decide
  refine {
    start := rfl, stop := ?_, position := ?_, code := ?_, open_iff := ?_, quote_iff := ?_,
    notes := rfl }
  · rw [Token.stop_eq]
    · rfl
    · simp only [token, Token.length]
      omega
  · simp only [token, Diagnostic.ofLexError, spanBehind, Text.toNat_line_endPosition hpassed,
      Text.toNat_column_endPosition hpassed]
    exact SourceFile.position_of_content_eq hcontent
  · obtain ⟨n, hcode, hmem⟩ := DiagnosticCode.exists_ofErrorType_eq type
    refine ⟨n, congrArg some hcode, ?_⟩
    rw [htype]
    exact hmem
  · have hopen := DiagnosticCode.ofErrorType_eq_open_iff type
    exact Option.some_inj.trans (hopen.trans hnone.symm)
  · exact hnone.trans (ErrorType.eq_none_iff_of_language hadmits.1)

/-- The diagnostics of lexemes behind a text report the malformed ones among their tokens, one by
one and in order. -/
lemma Lexeme.forall₂_reports_diagnosticsBehind {file : SourceFile} {strict : Bool} {passed : Text}
    {ls : List Lexeme} (hcontent : file.content = passed ++ ls.flatMap Lexeme.text)
    (hlen : file.content.length < UInt32.size - 1)
    (hadmits : ∀ l ∈ ls, l.verdict.Admits strict l.text) :
    List.Forall₂ (Diagnostic.Reports file) ((place (passed.length + 1) ls).filter Token.isError)
      (diagnosticsBehind passed ls) := by
  induction ls generalizing passed with
  | nil => exact .nil
  | cons l ls ih =>
    rw [List.flatMap_cons] at hcontent
    have hl : l.verdict.Admits strict l.text := hadmits l List.mem_cons_self
    -- the later lexemes lie behind a longer text, which the induction leaves open
    have hlater : List.Forall₂ (Diagnostic.Reports file)
        ((place (passed.length + 1 + l.text.length) ls).filter Token.isError)
        (diagnosticsBehind (passed ++ l.text) ls) := by
      have hstart : passed.length + 1 + l.text.length = (passed ++ l.text).length + 1 := by
        rw [List.length_append]
        omega
      rw [hstart]
      exact ih (by rw [hcontent, List.append_assoc])
        fun l' hl' => hadmits l' (List.mem_cons_of_mem l hl')
    rw [place, diagnosticsBehind]
    by_cases herror : (l.token (passed.length + 1)).isError = true
    · obtain ⟨type, hv⟩ := (isError_token_iff hl _).mp herror
      obtain ⟨text, v⟩ := l
      obtain rfl : v = .error type := hv
      rw [List.filter_cons_of_pos herror]
      exact .cons (reports_token hcontent hlen hl) hlater
    · rw [List.filter_cons_of_neg herror, diagnostic?_eq_none hl herror]
      exact hlater

/-- Reading the content of a file adds to the diagnostics held before. If no report is asked for it
adds nothing, and otherwise one diagnostic for each malformed token, in the order of the stream. The
tokens depend neither on whether a report is asked for nor on what was held. -/
theorem diagnostics_report_error_tokens (options : Options) (collector : Collector)
    (file : SourceFile) (hlen : file.content.length < UInt32.size - 1) :
    (∃ ds, (Lexed.ofText options collector file.content).collector.diagnostics =
        collector.diagnostics ++ ds ∧
      (options.report = false → ds = []) ∧
      (options.report = true → List.Forall₂ (Diagnostic.Reports file)
        ((Lexed.ofText options collector file.content).tokens.filter Token.isError) ds)) ∧
    ∀ (report : Bool) (collector' : Collector),
      (Lexed.ofText { options with report } collector' file.content).tokens =
        (Lexed.ofText options collector file.content).tokens := by
  have hadmits : ∀ l ∈ lexemes options.strictEscapes file.content,
      l.verdict.Admits options.strictEscapes l.text :=
    fun _ hl => admits_of_mem_lexemes hl
  have hcontent : file.content =
      [] ++ (lexemes options.strictEscapes file.content).flatMap Lexeme.text := by
    rw [List.nil_append, flatMap_text_lexemes]
  refine ⟨⟨_, diagnostics_ofText options collector file.content, ?_, ?_⟩, ?_⟩
  · intro hreport
    rw [hreport, if_neg Bool.false_ne_true]
  · intro hreport
    rw [if_pos hreport, tokens_ofText]
    exact forall₂_reports_diagnosticsBehind hcontent hlen hadmits
  · intro report collector'
    rw [tokens_ofText, tokens_ofText]

/-- A collector that holds something already gets two reports from a text with a malformed token on
each of its lines, the second of them without an error type. -/
theorem diagnostics_report_error_tokens_lines :
    "λ\r\n \"é".toList.length < UInt32.size - 1 ∧
      ∃ ds, (Lexed.ofText {} (.emit .empty { message := "held" })
            "λ\r\n \"é".toList).collector.diagnostics = { message := "held" } :: ds ∧
        List.Forall₂ (Diagnostic.Reports { name := "a.edn", content := "λ\r\n \"é".toList })
          [.error ['λ'] 1 (some .unrecognizedCharacter), .error ['"', 'é'] 5 none] ds := by
  have hlen : "λ\r\n \"é".toList.length < UInt32.size - 1 := by decide
  have herrors : (Lexed.ofText {} (.emit .empty { message := "held" })
      "λ\r\n \"é".toList).tokens.filter Token.isError =
        [.error ['λ'] 1 (some .unrecognizedCharacter), .error ['"', 'é'] 5 none] := by
    decide +kernel
  obtain ⟨⟨ds, hds, -, hreports⟩, -⟩ := diagnostics_report_error_tokens {}
    (.emit .empty { message := "held" }) { name := "a.edn", content := "λ\r\n \"é".toList } hlen
  have hreports' := hreports rfl
  rw [herrors] at hreports'
  exact ⟨hlen, ds, hds, hreports'⟩

end EdnTokens
