import Mathlib.Data.List.DropRight
import EdnTokens.Proofs.Position
import EdnTokens.Source.File

/-!
# The line of an offset

An offset cuts a text in two. The line on which the cut lies is what the first part has behind its
last line feed, followed by what the second part has before its first one. The line table knows
lines only by where they begin, in characters and in bytes, and both columns of it describe the same
lines (`Lines.byteStarts_ofText`). `SourceFile.lineAt?_of_content_eq` says that it finds this line,
and shows it without the carriage returns at its end.
-/

namespace EdnTokens

namespace Text

/-- What stands behind the last line feed of a text. -/
def lastLine (t : Text) : Text :=
  t.rtakeWhile (· != '\n')

/-- What stands up to the last line feed of a text. -/
def earlierLines (t : Text) : Text :=
  t.rdropWhile (· != '\n')

/-- What stands before the first line feed of a text. -/
def firstLine (t : Text) : Text :=
  t.takeWhile (· != '\n')

/-- The earlier lines and the last one make up the text. -/
lemma earlierLines_append_lastLine (t : Text) : t.earlierLines ++ t.lastLine = t :=
  List.rdropWhile_append_rtakeWhile

/-- Nothing behind the last line feed is a line feed. -/
lemma newline_notMem_lastLine (t : Text) : '\n' ∉ t.lastLine := by
  intro h
  have hne := List.mem_rtakeWhile_imp h
  simp at hne

/-- Nothing before the first line feed is a line feed. -/
lemma newline_notMem_firstLine (t : Text) : '\n' ∉ t.firstLine := by
  intro h
  have hne := List.mem_takeWhile_imp h
  simp at hne

/-- The line in which a text is cut holds no line feed. -/
lemma newline_notMem_lastLine_append_firstLine (s t : Text) :
    '\n' ∉ s.lastLine ++ t.firstLine := by
  rw [List.mem_append, not_or]
  exact ⟨newline_notMem_lastLine s, newline_notMem_firstLine t⟩

/-- The column of the end of a text counts the characters of its last line. -/
lemma column_endPosition_eq (t : Text) : t.endPosition.column = t.lastLine.length + 1 := by
  simp [endPosition, lastLine, List.rtakeWhile]

/-- A text is its first line, or that and a line feed are followed by the later lines. -/
lemma exists_eq_firstLine_append (t : Text) :
    ∃ ending later, t = t.firstLine ++ (ending ++ later) ∧
      (ending = ['\n'] ∨ ending = [] ∧ later = []) := by
  have happend : t.firstLine ++ t.dropWhile (· != '\n') = t := List.takeWhile_append_dropWhile
  cases hdrop : t.dropWhile (· != '\n') with
  | nil =>
    rw [hdrop] at happend
    exact ⟨[], [], happend.symm, .inr ⟨rfl, rfl⟩⟩
  | cons c later =>
    have hc := List.head_dropWhile_not (· != '\n') (l := t) (by rw [hdrop]; simp)
    obtain rfl : c = '\n' := by simpa [hdrop] using hc
    rw [hdrop] at happend
    exact ⟨['\n'], later, happend.symm, .inl rfl⟩

/-! ### Trimming the end of a line -/

lemma dropTrailing_eq_rdropWhile (c : Char) (t : Text) :
    dropTrailing c t = t.rdropWhile (· == c) := rfl

/-- Without copies of the character nothing is taken off. -/
lemma dropTrailing_of_notMem {c : Char} {t : Text} (h : c ∉ t) : dropTrailing c t = t := by
  rw [dropTrailing_eq_rdropWhile, List.rdropWhile_eq_self_iff]
  intro hne heq
  exact h (eq_of_beq heq ▸ List.getLast_mem hne)

/-- One copy more at the end makes no difference. -/
lemma dropTrailing_concat_self (c : Char) (t : Text) :
    dropTrailing c (t ++ [c]) = dropTrailing c t :=
  List.rdropWhile_concat_pos (· == c) t c (beq_self_eq_true c)

/-- Nothing up to a character that stays is taken off. -/
lemma dropTrailing_append_cons {c d : Char} (h : d ≠ c) (s t : Text) :
    dropTrailing c (s ++ d :: t) = s ++ d :: dropTrailing c t := by
  induction t using List.reverseRecOn with
  | nil => exact List.rdropWhile_concat_neg (· == c) s d (by simpa using h)
  | append_singleton t x ih =>
    rw [← List.cons_append, ← List.append_assoc]
    by_cases hx : x = c
    · rw [hx, dropTrailing_concat_self, dropTrailing_concat_self, ih]
    · have hneg : ¬ (x == c) = true := by simpa using hx
      have hleft := List.rdropWhile_concat_neg (· == c) (s ++ d :: t) x hneg
      have hright := List.rdropWhile_concat_neg (· == c) t x hneg
      calc dropTrailing c (s ++ d :: t ++ [x]) = s ++ d :: t ++ [x] := hleft
        _ = s ++ d :: (t ++ [x]) := by simp
        _ = s ++ d :: dropTrailing c (t ++ [x]) := by rw [dropTrailing_eq_rdropWhile, hright]

/-- What is left is a beginning of the text. -/
lemma dropTrailing_prefix (c : Char) (t : Text) : dropTrailing c t <+: t :=
  List.rdropWhile_prefix (· == c) t

end Text

namespace Lines

/-- The table of a text lists, for the line on which a first part ends, the offset behind the
earlier lines of that part. -/
lemma getElem?_starts_append (s t : Text) :
    (ofText (s ++ t)).starts[s.endPosition.line - 1]? = some (s.earlierLines.length + 1) := by
  obtain ⟨later, hlater, -⟩ := exists_collect_eq_append (1 + s.length) (collect 1 #[1] s) t
  rw [← collect_append] at hlater
  have hends := endsAt_collect s
  have hone := Text.one_le_line_endPosition s
  have hlt : s.endPosition.line - 1 < (collect 1 #[1] s).size := by
    rw [hends.size]
    omega
  have hstart : (collect 1 #[1] s)[s.endPosition.line - 1]? = some (s.earlierLines.length + 1) := by
    have hlast := hends.last
    have hlength := congrArg List.length (Text.earlierLines_append_lastLine s)
    rw [List.length_append] at hlength
    rw [Array.getD_eq_getD_getElem?, Array.getElem?_eq_getElem hlt, Option.getD_some,
      Text.column_endPosition_eq] at hlast
    rw [Array.getElem?_eq_getElem hlt, Option.some.injEq]
    omega
  rw [← Array.getElem?_toList, ofText, hlater, List.getElem?_append_left (by simpa using hlt),
    Array.getElem?_toList, hstart]

/-- Both columns of the table describe the same lines: the bytes before a line are those of the
characters before the offset at which it begins. -/
lemma collectBytes_eq_map (s t : Text) (starts : Array Nat) :
    collectBytes s.utf8Length (starts.map fun o => Text.utf8Length ((s ++ t).take (o - 1))) t =
      (collect (s.length + 1) starts t).map fun o => Text.utf8Length ((s ++ t).take (o - 1)) := by
  induction t generalizing s starts with
  | nil => rfl
  | cons c t ih =>
    have hsplit : s ++ c :: t = (s ++ [c]) ++ t := by simp
    have hlength : (s ++ [c]).length = s.length + 1 := List.length_append
    have hbytes : Text.utf8Length (s ++ [c]) = s.utf8Length + c.utf8Size := by simp
    have hrest := ih (s ++ [c]) (if c = '\n' then starts.push (s.length + 2) else starts)
    rw [hlength, hbytes, ← hsplit] at hrest
    rw [collect, collectBytes, ← hrest]
    by_cases hc : c = '\n'
    · have hupTo : (s ++ c :: t).take (s.length + 2 - 1) = s ++ [c] := by
        rw [hsplit]
        exact List.take_left' hlength
      have hone : '\n'.utf8Size = 1 := by decide
      rw [if_pos hc, if_pos hc, Array.map_push, hupTo, hbytes, hc, hone]
    · rw [if_neg hc, if_neg hc]

/-- The line table in bytes is the one in characters, counted out. -/
lemma byteStarts_ofText (t : Text) :
    (ofText t).byteStarts = (ofText t).starts.map fun o => Text.utf8Length (t.take (o - 1)) := by
  have h := collectBytes_eq_map [] t #[1]
  simpa [ofText] using h

/-- The line on which a first part ends begins behind the bytes of the earlier lines of that
part. -/
lemma getElem?_byteStarts_append (s t : Text) :
    (ofText (s ++ t)).byteStarts[s.endPosition.line - 1]? = some s.earlierLines.utf8Length := by
  have hsplit : s ++ t = s.earlierLines ++ (s.lastLine ++ t) := by
    rw [← List.append_assoc, Text.earlierLines_append_lastLine]
  rw [byteStarts_ofText, Array.getElem?_map, getElem?_starts_append, Option.map_some,
    Nat.add_sub_cancel, hsplit, List.take_left]

/-- The line on which a first part ends begins behind the earlier lines of that part, and ends with
the first line of what follows and the line feed behind that, if there is one. -/
lemma bounds?_append (s : Text) {t ending later : Text} (ht : t = t.firstLine ++ (ending ++ later))
    (hending : ending = ['\n'] ∨ ending = [] ∧ later = []) :
    (ofText (s ++ t)).bounds? (Text.utf8Length (s ++ t)) s.endPosition.line =
      some (s.earlierLines.utf8Length, Text.utf8Length (s ++ (t.firstLine ++ ending))) := by
  have hone := Text.one_le_line_endPosition s
  have hfirst := (Text.line_endPosition_eq_one_iff t.firstLine).mpr
    (Text.newline_notMem_firstLine t)
  have hnext : ((ofText (s ++ t)).byteStarts[s.endPosition.line]?).getD
      (Text.utf8Length (s ++ t)) = Text.utf8Length (s ++ (t.firstLine ++ ending)) := by
    rcases hending with rfl | ⟨rfl, rfl⟩
    · -- the next line begins where the text up to the line feed ends
      have hsplit : s ++ t = (s ++ t.firstLine ++ ['\n']) ++ later := by
        nth_rewrite 1 [ht]
        simp
      have hline : (s ++ t.firstLine ++ ['\n']).endPosition.line - 1 = s.endPosition.line := by
        rw [Text.endPosition_concat, if_pos rfl, Text.line_endPosition_append]
        simp only
        omega
      have hearlier : (s ++ t.firstLine ++ ['\n']).earlierLines =
          s ++ (t.firstLine ++ ['\n']) := by
        rw [Text.earlierLines, List.rdropWhile_concat_neg _ _ _ (by simp), List.append_assoc]
      have hstart := getElem?_byteStarts_append (s ++ t.firstLine ++ ['\n']) later
      rw [← hsplit, hline, hearlier] at hstart
      rw [hstart, Option.getD_some]
    · -- the table ends with this line
      rw [List.append_nil, List.append_nil] at ht
      have hsize := (endsAt_collect (s ++ t)).size
      rw [Text.line_endPosition_append, ht, hfirst] at hsize
      rw [← ht] at hsize
      have hnone : (ofText (s ++ t)).byteStarts[s.endPosition.line]? = none := by
        rw [byteStarts_ofText]
        apply Array.getElem?_eq_none
        rw [Array.size_map]
        exact hsize.le
      rw [hnone, Option.getD_none, List.append_nil, ← ht]
  rw [bounds?, if_neg (by omega), getElem?_byteStarts_append, Option.map_some, hnext]

end Lines

/-- The line table of a file places the offset behind the first part of its content where that part
ends. -/
lemma SourceFile.position_of_content_eq {file : SourceFile} {s t : Text}
    (h : file.content = s ++ t) : file.position (s.length + 1) = s.endPosition := by
  rw [position, file.lines_eq, h, Lines.position_append]

/-- The line on which a first part of the content ends, cut out at its bytes: what that part has
behind its last line feed, and what follows up to the next one, that line feed included. -/
lemma SourceFile.exists_slice_of_content_eq {file : SourceFile} {s t : Text}
    (h : file.content = s ++ t) :
    ∃ start next ending,
      file.lines.bounds? file.content.utf8Length s.endPosition.line = some (start, next) ∧
      file.content.sliceBytes? start next = some (s.lastLine ++ t.firstLine ++ ending) ∧
      (ending = ['\n'] ∨ ending = []) := by
  obtain ⟨ending, later, ht, hending⟩ := Text.exists_eq_firstLine_append t
  have hs := Text.earlierLines_append_lastLine s
  have hstop : s ++ (t.firstLine ++ ending) =
      s.earlierLines ++ (s.lastLine ++ t.firstLine ++ ending) := by
    nth_rewrite 1 [← hs]
    simp
  have hcontent : s ++ t = s.earlierLines ++ ((s.lastLine ++ t.firstLine ++ ending) ++ later) := by
    rw [← List.append_assoc, ← hstop]
    nth_rewrite 1 [ht]
    simp
  refine ⟨s.earlierLines.utf8Length, Text.utf8Length (s ++ (t.firstLine ++ ending)), ending,
    ?_, ?_, hending.imp_right And.left⟩
  · rw [file.lines_eq, h, Lines.bounds?_append s ht hending]
  · rw [h, hstop, hcontent, Text.sliceBytes?_append]

/-- The line on which a first part of the content ends, as it is shown: what that part has behind
its last line feed and what follows up to the next one, without carriage returns at the end. -/
lemma SourceFile.lineAt?_of_content_eq {file : SourceFile} {s t : Text}
    (h : file.content = s ++ t) :
    file.lineAt? s.endPosition.line =
      some (Text.dropTrailing '\r' (s.lastLine ++ t.firstLine)) := by
  have hnewline := Text.newline_notMem_lastLine_append_firstLine s t
  obtain ⟨start, next, ending, hbounds, hslice, hending⟩ :=
    SourceFile.exists_slice_of_content_eq h
  have htrim : Text.dropTrailing '\n' (s.lastLine ++ t.firstLine ++ ending) =
      s.lastLine ++ t.firstLine := by
    rcases hending with rfl | rfl
    · rw [Text.dropTrailing_concat_self, Text.dropTrailing_of_notMem hnewline]
    · rw [List.append_nil, Text.dropTrailing_of_notMem hnewline]
  rw [lineAt?, hbounds, Option.bind_some]
  simp only [hslice, Option.map_some, htrim]

end EdnTokens
