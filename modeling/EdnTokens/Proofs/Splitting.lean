import EdnTokens.Proofs.Lines

/-!
# Lines as pieces between line feeds

The lines of a file are the pieces of its content between line feeds. A file finds them through its
line table and cuts them out of the encoded content, at the bytes that the table names. These bytes
always lie between two characters, and the lines are the pieces that splitting the content at its
line feeds gives, without the carriage returns at their ends. A character that is no part of such an
end stands on the line and in the column that its position names
(`SourceFile.lineAt?_agrees_with_position`).

All of this comes down to cutting the content in two: a cut lies on one line, and every line has a
cut on it.
-/

namespace EdnTokens

namespace Text

/-! ### Splitting -/

/-- Every line feed divides a text once more. -/
lemma length_splitOn (t : Text) : (t.splitOn '\n').length = t.count '\n' + 1 := by
  induction t with
  | nil => rfl
  | cons c t ih =>
    rw [List.splitOn_cons_eq_if_modifyHead]
    by_cases hc : c = '\n'
    · rw [if_pos (beq_iff_eq.mpr hc), List.length_cons, ih, hc, List.count_cons_self]
    · rw [if_neg (by simpa using hc), List.length_modifyHead, ih, List.count_cons_of_ne hc]

/-- The earlier lines end with a line feed, if there are any. -/
lemma earlierLines_eq_nil_or_concat (t : Text) :
    t.earlierLines = [] ∨ ∃ earlier, t.earlierLines = earlier ++ ['\n'] := by
  by_cases hnil : t.earlierLines = []
  · exact .inl hnil
  · right
    have hlast : ¬ (t.earlierLines.getLast hnil != '\n') = true :=
      List.rdropWhile_last_not (· != '\n') t hnil
    have hnewline : t.earlierLines.getLast hnil = '\n' := by simpa using hlast
    refine ⟨t.earlierLines.dropLast, ?_⟩
    rw [← hnewline, List.dropLast_append_getLast]

/-- The first piece of a text that begins without a line feed goes on to the first one behind. -/
lemma getElem?_zero_splitOn_append {s : Text} (hs : '\n' ∉ s) (t : Text) :
    ((s ++ t).splitOn '\n')[0]? = some (s ++ t.firstLine) := by
  have hnewline : '\n' ∉ s ++ t.firstLine := by
    rw [List.mem_append, not_or]
    exact ⟨hs, newline_notMem_firstLine t⟩
  obtain ⟨ending, later, ht, rfl | ⟨rfl, rfl⟩⟩ := exists_eq_firstLine_append t
  · have hsplit : s ++ t = (s ++ t.firstLine) ++ '\n' :: later := by
      nth_rewrite 1 [ht]
      simp
    rw [hsplit, List.splitOn_append_cons_self_of_not_mem hnewline]
    rfl
  · rw [List.append_nil, List.append_nil] at ht
    rw [← ht] at hnewline ⊢
    rw [List.splitOn_eq_singleton hnewline]
    rfl

/-- The piece in which a cut lies: what stands before the cut behind the last line feed, and what
stands behind the cut before the first one. -/
lemma getElem?_splitOn_append (s t : Text) :
    ((s ++ t).splitOn '\n')[s.endPosition.line - 1]? = some (s.lastLine ++ t.firstLine) := by
  have hs := earlierLines_append_lastLine s
  have hlast := newline_notMem_lastLine s
  -- the index of the piece is the number of line feeds before the cut, all of them on earlier lines
  have hline : s.endPosition.line - 1 = s.earlierLines.count '\n' := by
    have hcount := congrArg (List.count '\n') hs
    rw [List.count_append, List.count_eq_zero_of_not_mem hlast] at hcount
    rw [endPosition, ← hcount]
    rfl
  rcases earlierLines_eq_nil_or_concat s with hnil | ⟨earlier, hearlier⟩
  · rw [hnil, List.nil_append] at hs
    rw [hline, hnil, List.count_nil, hs]
    rw [hs] at hlast
    exact getElem?_zero_splitOn_append hlast t
  · have hsplit : s ++ t = earlier ++ '\n' :: (s.lastLine ++ t) := by
      nth_rewrite 1 [← hs]
      rw [hearlier]
      simp
    have hindex : s.endPosition.line - 1 = (earlier.splitOn '\n').length := by
      rw [hline, hearlier, List.count_append, length_splitOn]
      rfl
    rw [hsplit, List.splitOn_append_cons_self, hindex, List.getElem?_append_right le_rfl,
      Nat.sub_self, getElem?_zero_splitOn_append hlast]

/-- Every line of a text has a cut on it. -/
lemma exists_split_on_line {t : Text} {i : Nat} (hi : i ≤ t.count '\n') :
    ∃ s u, t = s ++ u ∧ s.endPosition.line = i + 1 := by
  induction t generalizing i with
  | nil =>
    obtain rfl : i = 0 := Nat.le_zero.mp hi
    exact ⟨[], [], rfl, rfl⟩
  | cons c t ih =>
    by_cases hc : c = '\n'
    · cases i with
      -- the first line has the cut in front of everything
      | zero => exact ⟨[], c :: t, rfl, rfl⟩
      | succ i =>
        rw [hc, List.count_cons_self] at hi
        obtain ⟨s, u, rfl, hs⟩ := ih (Nat.le_of_succ_le_succ hi)
        refine ⟨c :: s, u, rfl, ?_⟩
        rw [← hs, hc]
        simp [endPosition]
    · rw [List.count_cons_of_ne hc] at hi
      obtain ⟨s, u, rfl, hs⟩ := ih hi
      refine ⟨c :: s, u, rfl, ?_⟩
      rw [← hs]
      simp [endPosition, List.count_cons_of_ne hc]

/-! ### What belongs to the end of a line -/

/-- A character with the text `after` behind it belongs to the end of its line if it is a line feed,
or if it is a carriage return and only more of them follow, up to a line feed or to the end of the
text. -/
def EndsLine (c : Char) (after : Text) : Prop :=
  c = '\n' ∨ c = '\r' ∧ ∃ n, after = List.replicate n '\r' ∨
    ∃ later, after = List.replicate n '\r' ++ '\n' :: later

/-- If something other than a carriage return follows on the line, nothing before it is taken
off. -/
lemma dropTrailing_append_of_mem {c d : Char} {t : Text} (hd : d ∈ t) (hne : d ≠ c) (s : Text) :
    dropTrailing c (s ++ t) = s ++ dropTrailing c t := by
  obtain ⟨u, v, rfl⟩ := List.append_of_mem hd
  rw [← List.append_assoc, dropTrailing_append_cons hne, dropTrailing_append_cons hne,
    List.append_assoc]

/-- Carriage returns that belong to no end of a line have something else behind them on it. -/
lemma exists_mem_firstLine_of_not_endsLine {after : Text} (h : ¬ EndsLine '\r' after) :
    ∃ d ∈ after.firstLine, d ≠ '\r' := by
  by_contra hnot
  push Not at hnot
  have hreturns := List.eq_replicate_of_mem hnot
  obtain ⟨ending, later, hafter, rfl | ⟨rfl, rfl⟩⟩ := exists_eq_firstLine_append after
  · rw [hreturns] at hafter
    exact h (.inr ⟨rfl, _, .inr ⟨later, hafter⟩⟩)
  · rw [hreturns, List.append_nil, List.append_nil] at hafter
    exact h (.inr ⟨rfl, _, .inl hafter⟩)

/-- A character that belongs to no end of a line is kept when the line is trimmed. -/
lemma exists_dropTrailing_eq_append (before : Text) {c : Char} {after : Text}
    (h : ¬ EndsLine c after) :
    ∃ rest, dropTrailing '\r' (before.lastLine ++ firstLine (c :: after)) =
      before.lastLine ++ c :: rest := by
  have hnewline : c ≠ '\n' := fun hc => h (.inl hc)
  have hfirst : firstLine (c :: after) = c :: after.firstLine := by
    simp [firstLine, hnewline]
  rw [hfirst]
  by_cases hc : c = '\r'
  · subst hc
    obtain ⟨d, hd, hne⟩ := exists_mem_firstLine_of_not_endsLine h
    refine ⟨dropTrailing '\r' after.firstLine, ?_⟩
    have hkept := dropTrailing_append_of_mem hd hne (before.lastLine ++ ['\r'])
    simpa using hkept
  · exact ⟨_, dropTrailing_append_cons hc _ _⟩

end Text

namespace SourceFile

variable (file : SourceFile)

/-- There is no line with number zero, and none behind the last one. -/
lemma bounds?_eq_none {line : Nat} (h : ¬ (1 ≤ line ∧ line ≤ file.content.count '\n' + 1)) :
    file.lines.bounds? file.content.utf8Length line = none := by
  have hsize : (Lines.ofText file.content).starts.size = file.content.count '\n' + 1 :=
    (Lines.endsAt_collect file.content).size
  rw [Lines.bounds?, file.lines_eq]
  by_cases hzero : line = 0
  · rw [if_pos hzero]
  · have hnone : (Lines.ofText file.content).byteStarts[line - 1]? = none := by
      rw [Lines.byteStarts_ofText]
      apply Array.getElem?_eq_none
      rw [Array.size_map]
      omega
    rw [if_neg hzero, hnone]
    rfl

/-- A line that is there is the one on which some cut through the content lies. -/
lemma exists_split_on_line {line : Nat} (hone : 1 ≤ line)
    (hlast : line ≤ file.content.count '\n' + 1) :
    ∃ s t, file.content = s ++ t ∧ s.endPosition.line = line := by
  obtain ⟨i, rfl⟩ : ∃ i, line = i + 1 := ⟨line - 1, by omega⟩
  exact Text.exists_split_on_line (Nat.le_of_succ_le_succ hlast)

/-- Lines are pieces between line feeds, trimmed. -/
lemma lineAt?_succ (i : Nat) :
    file.lineAt? (i + 1) =
      (file.content.splitOn '\n')[i]?.map (List.rdropWhile (· == '\r')) := by
  by_cases hi : i ≤ file.content.count '\n'
  · obtain ⟨s, t, hsplit, hline⟩ := Text.exists_split_on_line hi
    have hpiece : (file.content.splitOn '\n')[i]? = some (s.lastLine ++ t.firstLine) := by
      have hindex : s.endPosition.line - 1 = i := by rw [hline, Nat.add_sub_cancel]
      rw [hsplit, ← hindex, Text.getElem?_splitOn_append]
    rw [← hline, SourceFile.lineAt?_of_content_eq hsplit, hpiece, Option.map_some,
      Text.dropTrailing_eq_rdropWhile]
  · have hnone : (file.content.splitOn '\n')[i]? = none := by
      apply List.getElem?_eq_none
      rw [Text.length_splitOn]
      omega
    rw [lineAt?, file.bounds?_eq_none (by omega), hnone]
    rfl

/-- A line can be shown if and only if it is there. -/
lemma isSome_lineAt?_iff (line : Nat) :
    (file.lineAt? line).isSome ↔ 1 ≤ line ∧ line ≤ file.content.count '\n' + 1 := by
  constructor
  · intro hsome
    by_contra hnot
    rw [lineAt?, file.bounds?_eq_none hnot] at hsome
    contradiction
  · rintro ⟨hone, hlast⟩
    obtain ⟨s, t, hsplit, rfl⟩ := file.exists_split_on_line hone hlast
    rw [SourceFile.lineAt?_of_content_eq hsplit]
    rfl

/-- The bytes between which a line lies do so between characters. -/
lemma exists_sliceBytes?_eq_some {line start next : Nat}
    (h : file.lines.bounds? file.content.utf8Length line = some (start, next)) :
    ∃ whole, file.content.sliceBytes? start next = some whole := by
  have hline : 1 ≤ line ∧ line ≤ file.content.count '\n' + 1 := by
    by_contra hnot
    rw [file.bounds?_eq_none hnot] at h
    contradiction
  obtain ⟨s, t, hsplit, rfl⟩ := file.exists_split_on_line hline.1 hline.2
  obtain ⟨start', next', ending, hbounds, hslice, -⟩ :=
    SourceFile.exists_slice_of_content_eq hsplit
  -- the bounds of the line are those at which a cut on it divides the content
  obtain ⟨rfl, rfl⟩ : start = start' ∧ next = next' := by
    simpa using h.symm.trans hbounds
  exact ⟨_, hslice⟩

/-- A character that belongs to no end of a line stands where its position says. -/
lemma exists_lineAt?_position {offset : Nat} {c : Char} (hone : 1 ≤ offset)
    (hc : file.content[offset - 1]? = some c)
    (hends : ¬ Text.EndsLine c (file.content.drop offset)) :
    ∃ shown, file.lineAt? (file.position offset).line = some shown ∧
      1 ≤ (file.position offset).column ∧ shown[(file.position offset).column - 1]? = some c := by
  obtain ⟨hlt, hget⟩ := List.getElem?_eq_some_iff.mp hc
  have hdrop : file.content.drop (offset - 1) = c :: file.content.drop offset := by
    rw [List.drop_eq_getElem_cons hlt, hget, Nat.sub_add_cancel hone]
  -- the content is cut in front of the character, so that the cut lies on its line
  have hsplit : file.content =
      file.content.take (offset - 1) ++ c :: file.content.drop offset := by
    rw [← hdrop, List.take_append_drop]
  have hlength : (file.content.take (offset - 1)).length + 1 = offset := by
    rw [List.length_take]
    omega
  have hposition := SourceFile.position_of_content_eq hsplit
  have hshown := SourceFile.lineAt?_of_content_eq hsplit
  obtain ⟨rest, hrest⟩ := Text.exists_dropTrailing_eq_append (file.content.take (offset - 1)) hends
  rw [hlength] at hposition
  rw [hrest] at hshown
  rw [hposition, Text.column_endPosition_eq]
  refine ⟨_, hshown, Nat.le_add_left _ _, ?_⟩
  rw [Nat.add_sub_cancel, List.getElem?_append_right le_rfl, Nat.sub_self]
  rfl

/-- Lines and positions describe the same places. A file has one line more than line feeds, and its
lines are the pieces between them without the carriage returns at their ends; the bytes at which a
line is cut out always lie between characters. A character that belongs to no end of a line stands
on the line and in the column that its position names. -/
theorem lineAt?_agrees_with_position :
    (∀ line, (file.lineAt? line).isSome ↔ 1 ≤ line ∧ line ≤ file.content.count '\n' + 1) ∧
    (∀ i, file.lineAt? (i + 1) =
      (file.content.splitOn '\n')[i]?.map (List.rdropWhile (· == '\r'))) ∧
    (∀ line start next, file.lines.bounds? file.content.utf8Length line = some (start, next) →
      ∃ whole, file.content.sliceBytes? start next = some whole) ∧
    ∀ offset c, 1 ≤ offset → file.content[offset - 1]? = some c →
      ¬ Text.EndsLine c (file.content.drop offset) →
      ∃ shown, file.lineAt? (file.position offset).line = some shown ∧
        1 ≤ (file.position offset).column ∧
        shown[(file.position offset).column - 1]? = some c := by
  refine ⟨file.isSome_lineAt?_iff, file.lineAt?_succ, ?_, ?_⟩
  · intro line start next hbounds
    exact file.exists_sliceBytes?_eq_some hbounds
  · intro offset c hone hc hends
    exact file.exists_lineAt?_position hone hc hends

/-- A file with a carriage return in the middle of a line and two more before the line feed. -/
def strayReturn : SourceFile where
  name := "a.edn"
  content := "λ\rx\r\r\nµ".toList

/-- The carriage return in the middle of the line is shown, and the bytes of the second line hold
the one character on it. -/
theorem strayReturn_agrees :
    (∃ whole, strayReturn.content.sliceBytes? 7 9 = some whole) ∧
    ∃ shown, strayReturn.lineAt? (strayReturn.position 2).line = some shown ∧
      1 ≤ (strayReturn.position 2).column ∧
      shown[(strayReturn.position 2).column - 1]? = some '\r' := by
  have hends : ¬ Text.EndsLine '\r' (strayReturn.content.drop 2) := by
    have hafter : strayReturn.content.drop 2 = 'x' :: "\r\r\nµ".toList := by decide
    rw [hafter]
    rintro (h | ⟨-, n, h | ⟨later, h⟩⟩)
    · contradiction
    all_goals cases n <;> simp [List.replicate_succ] at h
  obtain ⟨-, -, hslice, hshown⟩ := lineAt?_agrees_with_position strayReturn
  exact ⟨hslice 2 7 9 (by decide), hshown 2 '\r' (by decide) (by decide) hends⟩

end SourceFile

end EdnTokens
