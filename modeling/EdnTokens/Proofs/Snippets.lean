import Mathlib.Data.List.Forall2
import EdnTokens.Diagnostic.Snippet
import EdnTokens.Proofs.Lines
import EdnTokens.Proofs.Reports

/-!
# Snippets of malformed tokens

The snippet of a diagnostic shows the line on which its token begins, with carets below the token
(`snippets_mark_error_tokens`). The line is cut before its line end, and a token may run over
several lines, so the carets stand below a beginning of the token. They never stand below nothing:
a malformed token does not begin with a separator, and only carriage returns and line feeds are
taken off a line.

Both rows of a snippet begin with a margin of the same width, however many digits the number of the
line has, so a caret stands below the column that it is made for.
-/

namespace EdnTokens

open Character EdnTokens.Language Lexeme

/-! ### How a malformed token begins -/

/-- Malformed input begins with a character that is not a separator. -/
lemma ErrorType.exists_eq_cons_of_language {type : Option ErrorType} {t : Text}
    (h : ErrorType.Language type t) : ∃ c rest, t = c :: rest ∧ ¬ isSeparator c = true := by
  match type with
  | none =>
    obtain ⟨body, rfl, -⟩ := h
    exact ⟨'"', body, rfl, by decide⟩
  | some .invalidNumberFormat =>
    obtain ⟨w, d, rfl, hw, -, -⟩ := h
    obtain ⟨c, rest, hcons, hstart⟩ := Scan.exists_isNumberStart_of_number hw [d]
    have hrest := Scan.isSymbolRest_of_isNumberStart hstart
    exact ⟨c, rest, hcons, (Scan.not_separator_of_isSymbolRest hrest).1⟩
  | some .invalidKeyword =>
    obtain rfl : t = _ := h
    exact ⟨':', _, rfl, by decide⟩
  | some .invalidDispatch =>
    rcases h with rfl | ⟨c, rest, rfl, -⟩
    · exact ⟨'#', [], rfl, by decide⟩
    · exact ⟨'#', c :: rest, rfl, by decide⟩
  | some .unrecognizedCharacter =>
    obtain ⟨c, rfl, hc, -⟩ := h
    exact ⟨c, [], rfl, hc⟩
  | some .invalidCharacterEscape =>
    rcases h with ⟨u, rfl, -⟩ | ⟨u, rfl, -⟩
    · exact ⟨'\\', 'u' :: u, rfl, by decide⟩
    · exact ⟨'\\', 'o' :: u, rfl, by decide⟩

/-- A malformed token of a text stands in it where its start says, and does not begin with a
separator. -/
lemma exists_split_of_mem_errors {strict : Bool} {source : Text} {t : Token}
    (h : t ∈ (place 1 (lexemes strict source)).filter Token.isError) :
    (∃ passed rest, source = passed ++ (t.text ++ rest) ∧ t.start = passed.length + 1) ∧
      ∃ c tail, t.text = c :: tail ∧ ¬ isSeparator c = true := by
  obtain ⟨hmem, herror⟩ := List.mem_filter.mp h
  rcases exists_first_of_mem_place hmem with rfl | ⟨passed, ahead, rfl, hahead, rfl⟩
  · cases herror
  · have hadmits := admits_first strict hahead
    obtain ⟨type, hv⟩ := (isError_token_iff hadmits _).mp herror
    rw [hv] at hadmits
    refine ⟨⟨passed, ahead.drop (first strict ahead).text.length, ?_, Nat.add_comm _ _⟩, ?_⟩
    · rw [show ((first strict ahead).token (1 + passed.length)).text = (first strict ahead).text
        from rfl, text_first_append]
    · exact ErrorType.exists_eq_cons_of_language hadmits.1

/-! ### Rows -/

namespace Snippet

/-- The characters of the line in the marked columns. -/
def marked (s : Snippet) : Text :=
  (s.line.drop (s.startColumn - 1)).take (s.stopColumn - s.startColumn)

/-- A snippet is shown as two rows. The first one has a margin with the number of the line before
the line itself. The second one has carets at exactly those places at which the first one has the
marked columns. -/
def Aligned (s : Snippet) : Prop :=
  ∃ above below margin : Text,
    s.format = above ++ '\n' :: below ∧ '\n' ∉ above ∧ '\n' ∉ below ∧
    above = margin ++ s.line ∧
    (∃ blanks, margin = List.replicate blanks ' ' ++ Text.ofNat s.lineNumber ++ " | ".toList) ∧
    ∀ i, below[i]? = some '^' ↔
      ∃ column, s.startColumn ≤ column ∧ column < s.stopColumn ∧ i = margin.length + (column - 1)

/-- Aligned texts that are not too long have the width asked for. -/
lemma length_alignRight {width : Nat} {t : Text} (h : t.length ≤ width) :
    (Text.alignRight width t).length = width := by
  simp only [Text.alignRight, List.length_append, List.length_replicate]
  omega

/-- Copies of a character stand exactly behind a text without it. -/
lemma getElem?_append_replicate_iff {c : Char} {before : Text} (h : c ∉ before) (n i : Nat) :
    (before ++ List.replicate n c)[i]? = some c ↔
      before.length ≤ i ∧ i < before.length + n := by
  by_cases hi : i < before.length
  · rw [List.getElem?_append_left hi]
    refine iff_of_false (fun hc => h (List.mem_of_getElem? hc)) (by omega)
  · rw [List.getElem?_append_right (by omega), List.getElem?_replicate]
    split_ifs with hn
    · exact iff_of_true rfl (by omega)
    · exact iff_of_false (by simp) (by omega)

/-- The row of the source is one row. -/
lemma newline_notMem_sourceRow {s : Snippet} (hline : '\n' ∉ s.line) : '\n' ∉ s.sourceRow := by
  simp [sourceRow, Text.alignRight, List.mem_replicate, hline, Text.notMem_ofNat]

/-- The row of the carets is one row. -/
lemma newline_notMem_caretRow (s : Snippet) : '\n' ∉ s.caretRow := by
  simp [caretRow, Text.alignRight, List.mem_replicate]

/-- Carets stand below the marked columns, if there is one. -/
lemma aligned_of_lt {s : Snippet} (hline : '\n' ∉ s.line) (hone : 1 ≤ s.startColumn)
    (hlt : s.startColumn < s.stopColumn) : s.Aligned := by
  have hnumber : (Text.ofNat s.lineNumber).length ≤ s.gutter := le_max_right _ _
  set margin := Text.alignRight s.gutter (Text.ofNat s.lineNumber) ++ " | ".toList with hmargin
  set indent := Text.alignRight s.gutter [] ++ " | ".toList ++
    List.replicate (s.startColumn - 1) ' ' with hindent
  have hlength : indent.length = margin.length + (s.startColumn - 1) := by
    rw [hindent, hmargin, List.length_append, List.length_append, List.length_append,
      length_alignRight hnumber, length_alignRight (Nat.zero_le _), List.length_replicate]
  -- margin and indent differ by the columns before the marked ones, so the carets begin below them
  have hbelow : s.caretRow = indent ++ List.replicate (s.stopColumn - s.startColumn) '^' := by
    have hcarets : s.carets = s.stopColumn - s.startColumn := max_eq_right (by omega)
    rw [caretRow, hcarets, hindent, List.append_assoc _ (List.replicate _ _)]
  have hcaret : '^' ∉ indent := by
    simp [hindent, Text.alignRight, List.mem_replicate]
  refine ⟨s.sourceRow, s.caretRow, margin, rfl, newline_notMem_sourceRow hline,
    newline_notMem_caretRow s, rfl, ?_, ?_⟩
  · exact ⟨_, rfl⟩
  · intro i
    rw [hbelow, getElem?_append_replicate_iff hcaret, hlength]
    constructor
    · rintro ⟨hle, hi⟩
      exact ⟨i - margin.length + 1, by omega, by omega, by omega⟩
    · rintro ⟨column, hle, hcolumn, rfl⟩
      exact ⟨by omega, by omega⟩

/-! ### The snippet of a token -/

/-- The snippet marks the token `t` of a diagnostic: it shows the line that the diagnostic names,
and marks columns of it from the one that the diagnostic names on. What they hold is a beginning of
the token, and if it is not the whole token, the line ends there. -/
structure Marks (t : Token) (d : Diagnostic) (s : Snippet) : Prop where
  lineNumber : s.lineNumber = d.span.line.toNat
  startColumn : s.startColumn = d.span.column.toNat
  start_lt : s.startColumn < s.stopColumn
  stop_le : s.stopColumn ≤ s.line.length + 1
  prefix_text : s.marked <+: t.text
  whole_or_cut : s.marked = t.text ∨ s.stopColumn = s.line.length + 1
  aligned : s.Aligned

/-- A span whose beginning is placed where a first part of the content ends has a snippet, with the
line that the line table finds there, which is one line. -/
lemma exists_ofSpan?_of_position_eq {file : SourceFile} {passed ahead : Text} {span : Span}
    (hcontent : file.content = passed ++ ahead)
    (hposition : file.position span.start = passed.endPosition) :
    ∃ s, ofSpan? file span = some s ∧
      s.line = Text.dropTrailing '\r' (passed.lastLine ++ ahead.firstLine) ∧ '\n' ∉ s.line ∧
      s.lineNumber = passed.endPosition.line ∧ s.startColumn = passed.endPosition.column ∧
      s.stopColumn = min ((s.startColumn + span.length) % UInt64.size) (s.line.length + 1) := by
  have hshorter := Text.dropTrailing_prefix '\r' (passed.lastLine ++ ahead.firstLine)
  have hunbroken : '\n' ∉ Text.dropTrailing '\r' (passed.lastLine ++ ahead.firstLine) :=
    fun h => Text.newline_notMem_lastLine_append_firstLine passed ahead (hshorter.subset h)
  rw [ofSpan?, hposition, SourceFile.lineAt?_of_content_eq hcontent]
  exact ⟨_, rfl, rfl, hunbroken, rfl, rfl, rfl⟩

/-- What a line shows from a character on that is no line end: a beginning of the text ahead, of at
least that character. -/
lemma exists_line_eq_append (passed tail : Text) {c : Char} (hc : ¬ isSeparator c = true) :
    ∃ shown, Text.dropTrailing '\r' (passed.lastLine ++ Text.firstLine (c :: tail)) =
        passed.lastLine ++ c :: shown ∧ c :: shown <+: c :: tail := by
  have hnewline : c ≠ '\n' := by
    rintro rfl
    exact hc rfl
  have hreturn : c ≠ '\r' := by
    rintro rfl
    exact hc rfl
  have hfirst : Text.firstLine (c :: tail) = c :: tail.firstLine := by
    simp [Text.firstLine, hnewline]
  have hbegins := Text.dropTrailing_prefix '\r' tail.firstLine
  refine ⟨Text.dropTrailing '\r' tail.firstLine, ?_, ?_⟩
  · rw [hfirst, Text.dropTrailing_append_cons hreturn]
  · rw [List.cons_prefix_cons]
    exact ⟨rfl, hbegins.trans (List.takeWhile_prefix _)⟩

/-- If the marked line goes on from the first marked column with a beginning of what lies ahead, and
the marked columns are as many as the token has characters but cut to the line, they hold a
beginning of the token, and all of it unless the line ends before. -/
lemma marked_of_line_eq {s : Snippet} {lead shown t rest : Text}
    (hline : s.line = lead ++ shown) (hbegins : shown <+: t ++ rest)
    (hstart : s.startColumn = lead.length + 1)
    (hstop : s.stopColumn = min (s.startColumn + t.length) (s.line.length + 1)) :
    s.marked <+: t ∧ (s.marked = t ∨ s.stopColumn = s.line.length + 1) := by
  have hlength : s.line.length = lead.length + shown.length := by
    rw [hline, List.length_append]
  -- both bounds of the marked columns cut the shown part of the line, the length of the token and
  -- the end of the line
  have hmarked : s.marked = shown.take t.length := by
    rw [marked, hline, hstart, Nat.add_sub_cancel, List.drop_left, hstop, hlength, hstart]
    rcases Nat.le_total t.length shown.length with hle | hle
    · congr 1
      omega
    · rw [List.take_of_length_le (by omega), List.take_of_length_le hle]
  have htake : s.marked <+: t := by
    rw [hmarked]
    apply List.prefix_of_prefix_length_le ((List.take_prefix _ _).trans hbegins)
      (List.prefix_append t rest)
    exact List.length_take_le _ _
  refine ⟨htake, ?_⟩
  rcases Nat.lt_or_ge shown.length t.length with hlt | hge
  · right
    omega
  · left
    apply htake.eq_of_length
    rw [hmarked, List.length_take]
    omega

/-- The span of a diagnostic is as long as the token that it reports. -/
lemma length_span_of_reports {file : SourceFile} {t : Token} {d : Diagnostic}
    (h : d.Reports file t) (hfits : t.start + t.text.length < UInt64.size) :
    d.span.length = t.text.length := by
  rw [Span.length, h.stop, h.start, Token.stop_eq t hfits, Nat.add_sub_cancel_left, Token.length]

/-- A diagnostic that reports a token, which does not begin with a separator, has a snippet that
marks it. -/
lemma exists_marks_of_reports {file : SourceFile} {passed rest tail : Text} {c : Char} {t : Token}
    {d : Diagnostic} (hreports : d.Reports file t)
    (hcontent : file.content = passed ++ (t.text ++ rest)) (hstart : t.start = passed.length + 1)
    (hlen : file.content.length < UInt32.size - 1) (htext : t.text = c :: tail)
    (hc : ¬ isSeparator c = true) : ∃ s, ofSpan? file d.span = some s ∧ s.Marks t d := by
  have hplace : file.position d.span.start = passed.endPosition := by
    rw [hreports.start, hstart, SourceFile.position_of_content_eq hcontent]
  obtain ⟨s, hs, hline, hunbroken, hnumber, hcolumn, hstop⟩ :=
    exists_ofSpan?_of_position_eq hcontent hplace
  obtain ⟨shown, hshown, hbegins⟩ := exists_line_eq_append passed (tail ++ rest) hc
  rw [htext, List.cons_append, hshown] at hline
  have hposition := hreports.position
  rw [← hreports.start, hplace] at hposition
  -- all columns fit into words, because the whole content does
  have hsize : UInt32.size < UInt64.size := by decide
  have hlengths : passed.length + (t.text.length + rest.length) < UInt32.size - 1 := by
    simpa only [hcontent, List.length_append] using hlen
  have hlast := Text.column_endPosition_le passed
  rw [length_span_of_reports hreports (by omega), Nat.mod_eq_of_lt (by omega)] at hstop
  have hlength : s.line.length = passed.lastLine.length + (shown.length + 1) := by
    rw [hline, List.length_append, List.length_cons]
  have hpositive : 0 < t.text.length := by
    rw [htext]
    exact Nat.succ_pos _
  have hcolumn' := hcolumn.trans (Text.column_endPosition_eq passed)
  have hlt : s.startColumn < s.stopColumn := by omega
  obtain ⟨hmarked, hcut⟩ := marked_of_line_eq hline
    (show c :: shown <+: t.text ++ rest by rw [htext]; exact hbegins) hcolumn' hstop
  exact ⟨s, hs, {
    lineNumber := by rw [hnumber, hposition]
    startColumn := by rw [hcolumn, hposition]
    start_lt := hlt
    stop_le := by omega
    prefix_text := hmarked
    whole_or_cut := hcut
    aligned := aligned_of_lt hunbroken (by omega) hlt }⟩

end Snippet

/-- Where a report is asked for, each malformed token of a file has a diagnostic with a snippet that
marks the token: it shows the line on which the token begins, with carets below the characters of
the token, all of them or as many as the line holds. -/
theorem snippets_mark_error_tokens (options : Options) (collector : Collector) (file : SourceFile)
    (hreport : options.report = true) (hlen : file.content.length < UInt32.size - 1) :
    ∃ ds, (Lexed.ofText options collector file.content).collector.diagnostics =
        collector.diagnostics ++ ds ∧
      List.Forall₂ (fun t d => ∃ s, Snippet.ofSpan? file d.span = some s ∧ s.Marks t d)
        ((Lexed.ofText options collector file.content).tokens.filter Token.isError) ds := by
  set ls := lexemes options.strictEscapes file.content with hls
  have hcontent : file.content = [] ++ ls.flatMap Lexeme.text := by
    rw [List.nil_append, flatMap_text_lexemes]
  have hreports : List.Forall₂ (Diagnostic.Reports file) ((place 1 ls).filter Token.isError)
      (diagnosticsBehind [] ls) :=
    forall₂_reports_diagnosticsBehind hcontent hlen fun _ hl => admits_of_mem_lexemes hl
  refine ⟨diagnosticsBehind [] ls, ?_, ?_⟩
  · rw [diagnostics_ofText, if_pos hreport]
  · rw [tokens_ofText]
    refine ((List.forall₂_and_left _ _).mpr ⟨fun t ht => ht, hreports⟩).imp ?_
    rintro t d ⟨ht, hd⟩
    obtain ⟨⟨passed, rest, hcontent, hstart⟩, c, tail, htext, hc⟩ := exists_split_of_mem_errors ht
    exact Snippet.exists_marks_of_reports hd hcontent hstart hlen htext hc

/-- A character that begins no token, and on the next line a string that is never closed and runs
over the end of that line: both are marked, the string up to the carriage return. -/
theorem snippets_mark_error_tokens_cut_off :
    ({} : Options).report = true ∧ "λ\r\n  \"é\r\nx".toList.length < UInt32.size - 1 ∧
      ∃ ds, (Lexed.ofText {} .empty "λ\r\n  \"é\r\nx".toList).collector.diagnostics = [] ++ ds ∧
        List.Forall₂ (fun t d => ∃ s,
            Snippet.ofSpan? { name := "a.edn", content := "λ\r\n  \"é\r\nx".toList } d.span =
              some s ∧ s.Marks t d)
          [.error ['λ'] 1 (some .unrecognizedCharacter), .error "\"é\r\nx".toList 6 none] ds := by
  have hlen : "λ\r\n  \"é\r\nx".toList.length < UInt32.size - 1 := by decide
  have herrors : (Lexed.ofText {} .empty "λ\r\n  \"é\r\nx".toList).tokens.filter Token.isError =
      [.error ['λ'] 1 (some .unrecognizedCharacter), .error "\"é\r\nx".toList 6 none] := by
    decide +kernel
  obtain ⟨ds, hds, hmarks⟩ := snippets_mark_error_tokens {} .empty
    { name := "a.edn", content := "λ\r\n  \"é\r\nx".toList } rfl hlen
  rw [herrors] at hmarks
  exact ⟨rfl, hlen, ds, hds, hmarks⟩

/-- The carets of the second of these stop where the line does. -/
example : (Snippet.ofSpan? { name := "a.edn", content := "λ\r\n  \"é\r\nx".toList }
    ⟨6, 11, 2, 3, 0⟩).map Snippet.format = some "  2 |   \"é\n    |   ^^".toList := by
  decide +kernel

end EdnTokens
