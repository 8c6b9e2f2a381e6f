import EdnTokens.Proofs.Offsets
import EdnTokens.Proofs.Snippets
import EdnTokens.Proofs.Splitting

/-!
# Snippets of arbitrary spans

A span need not come from a token. It may begin before the first character or far behind the last
one, it may end before it begins, and it may begin among the carriage returns that are taken off the
end of its line. There is a snippet all the same (`Snippet.exists_shows_ofSpan?`).

The beginning of a span is clamped to the file, so there always is a part of the content in front of
it, and the line on which that part ends is a line of the file. Columns are counted in the whole
line and the end of the marked range is cut to the line that is shown, so the range may end before
it begins. It then marks nothing, and gets the one caret of an empty range.
-/

namespace EdnTokens

namespace Snippet

/-- The snippet shows a span of a file. Its line is a line of the file, the one on which the span
begins, and nothing fails on the way to it. The marked range begins in the column of the span and
has as many columns as the span has characters, unless the line ends before. It is shown in two
rows: the line with its number in the margin, and below it, behind a margin of the same width,
carets behind as many blanks as there are columns in front of the range, one caret for each column
in it, and one if there is none. -/
structure Shows (file : SourceFile) (span : Span) (s : Snippet) : Prop where
  position : file.position span.start = ⟨s.lineNumber, s.startColumn⟩
  found : file.lines.position? span.start = some ⟨s.lineNumber, s.startColumn⟩
  one_le_lineNumber : 1 ≤ s.lineNumber
  lineNumber_le : s.lineNumber ≤ file.content.count '\n' + 1
  line : file.lineAt? s.lineNumber = some s.line
  stopColumn : (s.stopColumn : ℤ) =
    min (s.startColumn + max 0 ((span.stop : ℤ) - span.start)) (s.line.length + 1)
  rows : ∃ above below width blanks carets,
    s.format.splitOn '\n' = [above, below] ∧
    width = max 3 (Text.ofNat s.lineNumber).length ∧
    above = Text.alignRight width (Text.ofNat s.lineNumber) ++ " | ".toList ++ s.line ∧
    below = List.replicate width ' ' ++ " | ".toList ++
      List.replicate blanks ' ' ++ List.replicate carets '^' ∧
    (blanks : ℤ) = s.startColumn - 1 ∧
    (carets : ℤ) = max 1 ((s.stopColumn : ℤ) - s.startColumn)

/-- A snippet is shown in two rows, if its line is one line. -/
lemma splitOn_format {s : Snippet} (hline : '\n' ∉ s.line) :
    s.format.splitOn '\n' = [s.sourceRow, s.caretRow] := by
  rw [format, List.splitOn_append_cons_self_of_not_mem (newline_notMem_sourceRow hline),
    List.splitOn_eq_singleton (newline_notMem_caretRow s)]

/-- Every span of a file has a snippet that shows it, as long as the columns can be counted in
64-bit words. -/
theorem exists_shows_ofSpan? (file : SourceFile) (span : Span)
    (hfits : span.length + file.content.length + 1 < UInt64.size) :
    ∃ s, ofSpan? file span = some s ∧ s.Shows file span := by
  -- an offset outside of the file is clamped, so every span begins between two parts of the content
  obtain ⟨passed, ahead, hcontent, hpassed, -⟩ :=
    Lines.exists_split_at_clamp file.content span.start
  have hplace : file.position span.start = passed.endPosition := by
    rw [SourceFile.position, file.lines_eq, Lines.position_eq_endPosition, ← hpassed]
  obtain ⟨s, hs, hline, hunbroken, hnumber, hcolumn, hstop⟩ :=
    exists_ofSpan?_of_position_eq hcontent hplace
  have hposition : file.position span.start = ⟨s.lineNumber, s.startColumn⟩ := by
    rw [hplace, hnumber, hcolumn]
  have hone : 1 ≤ s.startColumn := by
    rw [hcolumn]
    exact Text.one_le_column_endPosition passed
  -- the end column is taken modulo 2⁶⁴, which changes nothing in this range
  have hfit : s.startColumn + span.length < UInt64.size := by
    have hlast := Text.column_endPosition_le passed
    rw [hcontent, List.length_append] at hfits
    omega
  rw [Nat.mod_eq_of_lt hfit, Span.length] at hstop
  refine ⟨s, hs, {
    position := hposition
    found := ?_
    one_le_lineNumber := ?_
    lineNumber_le := ?_
    line := ?_
    stopColumn := ?_
    rows := ⟨s.sourceRow, s.caretRow, s.gutter, s.startColumn - 1, s.carets,
      splitOn_format hunbroken, rfl, rfl, ?_, ?_, ?_⟩ }⟩
  · have hfound := Lines.position?_eq_some file.content span.start
    rw [← file.lines_eq] at hfound
    rw [hfound]
    exact congrArg some hposition
  · rw [hnumber]
    exact Text.one_le_line_endPosition passed
  · have hlines : passed.endPosition.line = passed.count '\n' + 1 := rfl
    rw [hnumber, hcontent, List.count_append, hlines]
    omega
  · rw [hnumber, SourceFile.lineAt?_of_content_eq hcontent, hline]
  · omega
  · simp only [caretRow, Text.alignRight, gutter, List.length_nil, Nat.sub_zero, List.append_nil,
      List.append_assoc]
  · omega
  · rw [carets]
    omega

/-- The second of three carriage returns in front of a line feed lies behind the end of the line
that is shown, and the span ends before it begins. -/
theorem exists_shows_ofSpan?_trimmed :
    (⟨4, 2, 0, 0, 0⟩ : Span).length + "\na\r\r\r\nb".toList.length + 1 < UInt64.size ∧
      ofSpan? { name := "a.edn", content := "\na\r\r\r\nb".toList } ⟨4, 2, 0, 0, 0⟩ =
        some ⟨['a'], 2, 3, 2⟩ ∧
      Shows { name := "a.edn", content := "\na\r\r\r\nb".toList } ⟨4, 2, 0, 0, 0⟩
        ⟨['a'], 2, 3, 2⟩ := by
  have hfits : (⟨4, 2, 0, 0, 0⟩ : Span).length + "\na\r\r\r\nb".toList.length + 1 <
      UInt64.size := by
    decide
  have hs : ofSpan? { name := "a.edn", content := "\na\r\r\r\nb".toList } ⟨4, 2, 0, 0, 0⟩ =
      some ⟨['a'], 2, 3, 2⟩ := by
    decide +kernel
  obtain ⟨s, hs', hshows⟩ := exists_shows_ofSpan?
    { name := "a.edn", content := "\na\r\r\r\nb".toList } ⟨4, 2, 0, 0, 0⟩ hfits
  rw [hs] at hs'
  obtain rfl := Option.some.inj hs'
  exact ⟨hfits, hs, hshows⟩

/-- A span in an empty file that begins far behind the end. -/
example : (ofSpan? { name := "a.edn", content := [] } ⟨99, 0, 0, 0, 0⟩).map format =
    some "  1 | \n    | ^".toList := by
  decide +kernel

end Snippet

end EdnTokens
