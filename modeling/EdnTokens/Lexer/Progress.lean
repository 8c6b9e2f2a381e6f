import EdnTokens.Lexer.Scan

/-!
# Progress

The next token of a text that is not empty takes at least one character. This is why reading a
text to its end terminates.
-/

namespace EdnTokens

namespace Extent

/-- Where there is a character, at least one is taken. -/
theorem upTo_cons_pos (n : Nat) (c : Char) (t : Text) : 0 < upTo (n + 1) (c :: t) := by
  simp [upTo]

/-- A run takes its first character. -/
theorem run_cons_pos {p : Char → Bool} {c : Char} (h : p c = true) (t : Text) :
    0 < run p (c :: t) := by
  simp [run, h]

/-- A character that is there is taken, whatever is to follow. -/
theorem after_cons_pos {p : Char → Bool} {c : Char} (h : p c = true) (m : Extent) (t : Text) :
    0 < after p m (c :: t) := by
  simp [after, h]

/-- If the first of two extents takes something, so do both together. -/
theorem followedBy_pos {m : Extent} {t : Text} (h : 0 < m t) (n : Extent) :
    0 < followedBy m n t :=
  Nat.lt_of_lt_of_le h (Nat.le_add_right _ _)

/-- If the first of two extents takes nothing, the second one decides. -/
theorem followedBy_pos_of_zero {m : Extent} {t : Text} (h : m t = 0) {n : Extent}
    (hn : 0 < n t) : 0 < followedBy m n t := by
  simp [followedBy, h, hn]

end Extent

namespace Scan

open Character Extent

/-- A number takes at least one character where a number begins. -/
theorem numeral_pos {c : Char} {t : Text} (h : isNumberStart c t.head? = true) :
    0 < numeral (c :: t) := by
  unfold numeral
  by_cases hsign : (c == '+' || c == '-') = true
  · exact followedBy_pos (after_cons_pos hsign _ _) _
  apply followedBy_pos_of_zero
  · simp only [option, after, hsign, Bool.false_eq_true, if_false]
  by_cases hd : isDigit c = true
  · exact followedBy_pos (run_cons_pos hd _) _
  apply followedBy_pos_of_zero
  · simp [digits, run, hd]
  apply followedBy_pos
  apply after_cons_pos
  simp only [isNumberStart, Bool.or_eq_true, Bool.and_eq_true] at h
  rcases h with h | ⟨(h | h) | h, -⟩
  · exact absurd h hd
  · simp [h] at hsign
  · simp [h] at hsign
  · exact h

/-- A symbol takes its first character, whatever it is. -/
theorem symbol_width_pos (c : Char) (t : Text) : 0 < (symbol (c :: t)).width :=
  followedBy_pos (upTo_cons_pos 0 c t) _

/-- A keyword takes its first character, also where it is malformed. -/
theorem keyword_width_pos (c : Char) (t : Text) : 0 < (keyword (c :: t)).width := by
  unfold keyword
  have h := followedBy_pos (upTo_cons_pos 0 c t) (option (· == ':'))
  simp only
  split
  · exact Nat.succ_pos _
  · exact Nat.lt_of_lt_of_le h (Nat.le_add_right _ _)

/-- A dispatch takes its first character, whatever stands behind it. -/
theorem dispatch_width_pos (c : Char) (t : Text) : 0 < (dispatch (c :: t)).width := by
  have h : 0 < upTo 1 (c :: t) := upTo_cons_pos 0 c t
  unfold dispatch
  simp only
  split
  · exact h
  · repeat' split
    all_goals simp only; omega

/-- A string takes its first character, also where it is not closed. -/
theorem string_width_pos (c : Char) (t : Text) : 0 < (string (c :: t)).width := by
  unfold string
  split <;> exact Nat.succ_pos _

/-- A character literal takes its first character, also where nothing follows. -/
theorem character_width_pos (strict : Bool) (c : Char) (t : Text) :
    0 < (character strict (c :: t)).width := by
  unfold character
  split
  · exact Nat.succ_pos _
  · split
    · exact Nat.succ_pos _
    · exact Nat.succ_pos _
    · exact upTo_cons_pos 1 c t

/-- The scanner chosen for a text takes at least one character of it. -/
theorem ofFamily_width_pos (strict : Bool) {c : Char} {t : Text} {scanner : Scanner}
    (h : scannerFor? c t = some scanner) : 0 < (ofFamily strict scanner (c :: t)).width := by
  unfold scannerFor? at h
  split at h
  · cases h
    exact run_cons_pos (by assumption) t
  split at h
  · cases h
  split at h
  · cases h
    have hpos := numeral_pos (by assumption)
    simp only [ofFamily, number]
    split
    · exact Nat.succ_pos _
    · exact hpos
  split at h
  · cases h
    exact symbol_width_pos c t
  split at h
  · cases h
    exact string_width_pos c t
  split at h
  · cases h
    exact character_width_pos strict c t
  split at h
  · cases h
    exact keyword_width_pos c t
  split at h
  · cases h
    subst c
    exact followedBy_pos (run_cons_pos (by decide) t) _
  split at h
  · cases h
    exact dispatch_width_pos c t
  · cases h

/-- The next token of a text that is not empty is not empty. -/
theorem next_width_pos (strict : Bool) (c : Char) (t : Text) :
    0 < (next strict (c :: t)).width := by
  simp only [next]
  split
  · exact ofFamily_width_pos strict (by assumption)
  · split <;> exact Nat.one_pos

/-- Every scanner ends its verdict on a kind other than the end of the text. -/
theorem verdict_ofFamily_ne_eof (strict : Bool) (scanner : Scanner) (t : Text) :
    (ofFamily strict scanner t).verdict ≠ .token .eof := by
  cases scanner <;>
    simp only [ofFamily, whitespace, number, symbol, string, character, keyword, comment, dispatch,
      characterEscape] <;>
    (repeat' split) <;> simp

/-- The end of the text is announced only there. -/
theorem next_verdict_eq_eof_iff (strict : Bool) (t : Text) :
    (next strict t).verdict = .token .eof ↔ t = [] := by
  cases t with
  | nil => simp [next]
  | cons c t =>
    simp only [next, reduceCtorEq, iff_false]
    split
    · exact verdict_ofFamily_ne_eof strict _ _
    · split
      · rename_i h
        unfold TokenKind.ofDelimiter? at h
        repeat' split at h
        all_goals first | cases h; simp | cases h
      · simp

end Scan

end EdnTokens
