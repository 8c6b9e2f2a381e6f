import Mathlib.Data.List.GetD
import Mathlib.Data.List.Induction
import Mathlib.Data.List.TakeWhile
import Mathlib.Tactic.Common
import EdnTokens.Source.Lines

/-!
# Positions

Where a text ends, counted in lines and columns, and how that place moves when the text grows. The
line table answers the same question for every offset of a text: bisection in it finds the place
where the part before the offset ends (`Lines.position_eq_endPosition`).
-/

namespace EdnTokens

namespace Text

/-! ### The end of a text -/

/-- Line and column of the place right behind a text that begins on line one, column one. -/
def endPosition (t : Text) : Position where
  line := t.count '\n' + 1
  column := (t.reverse.takeWhile (· != '\n')).length + 1

/-- A line feed begins a new line, and any other character moves the end by one column. -/
lemma endPosition_concat (t : Text) (c : Char) :
    endPosition (t ++ [c]) =
      if c = '\n' then ⟨(endPosition t).line + 1, 1⟩
      else ⟨(endPosition t).line, (endPosition t).column + 1⟩ := by
  by_cases h : c = '\n'
  · simp [endPosition, h]
  · simp [endPosition, h]

/-- The line feeds of both texts count. -/
lemma line_endPosition_append (s t : Text) :
    (endPosition (s ++ t)).line = (endPosition s).line + ((endPosition t).line - 1) := by
  simp only [endPosition, List.count_append, Nat.add_sub_cancel]
  omega

/-- Without a line feed the text behind continues the last line of the text before. -/
lemma column_endPosition_append_of_notMem (s : Text) {t : Text} (h : '\n' ∉ t) :
    (endPosition (s ++ t)).column = (endPosition s).column + ((endPosition t).column - 1) := by
  have hall : ∀ c ∈ t.reverse, (c != '\n') = true := by
    intro c hc
    rw [bne_iff_ne]
    rintro rfl
    exact h (List.mem_reverse.mp hc)
  simp only [endPosition, List.reverse_append, List.takeWhile_append_of_pos hall,
    List.length_append, List.takeWhile_eq_self_iff.mpr hall]
  omega

/-- With a line feed in it the text behind alone decides the column. -/
lemma column_endPosition_append_of_mem (s : Text) {t : Text} (h : '\n' ∈ t) :
    (endPosition (s ++ t)).column = (endPosition t).column := by
  have hstop : (t.reverse.takeWhile (· != '\n')).length ≠ t.reverse.length := by
    intro hlen
    have hself := (List.takeWhile_sublist (· != '\n')).eq_of_length hlen
    have hne := List.takeWhile_eq_self_iff.mp hself '\n' (List.mem_reverse.mpr h)
    simp at hne
  simp only [endPosition, List.reverse_append, List.takeWhile_append, hstop, if_false]

/-- A text ends on its first line exactly if it has no line feed. -/
lemma line_endPosition_eq_one_iff (t : Text) : (endPosition t).line = 1 ↔ '\n' ∉ t := by
  simp [endPosition, List.count_eq_zero]

/-- Lines are counted from one. -/
lemma one_le_line_endPosition (t : Text) : 1 ≤ (endPosition t).line :=
  Nat.succ_le_succ (Nat.zero_le _)

/-- Columns are counted from one. -/
lemma one_le_column_endPosition (t : Text) : 1 ≤ (endPosition t).column :=
  Nat.succ_le_succ (Nat.zero_le _)

/-- A text has at most one line feed for each character. -/
lemma line_endPosition_le (t : Text) : (endPosition t).line ≤ t.length + 1 :=
  Nat.succ_le_succ List.count_le_length

/-- A line is no longer than the text. -/
lemma column_endPosition_le (t : Text) : (endPosition t).column ≤ t.length + 1 := by
  have h := (List.takeWhile_sublist (l := t.reverse) (· != '\n')).length_le
  rw [List.length_reverse] at h
  exact Nat.succ_le_succ h

/-- In a text of fewer than `UInt32.size - 1` characters both counters fit into 32-bit words. -/
lemma toNat_line_endPosition {t : Text} (h : t.length < UInt32.size - 1) :
    (UInt32.ofNat (endPosition t).line).toNat = (endPosition t).line := by
  have hle := line_endPosition_le t
  exact UInt32.toNat_ofNat_of_lt (by omega)

/-- The same holds of the column alone. -/
lemma toNat_column_endPosition {t : Text} (h : t.length < UInt32.size - 1) :
    (UInt32.ofNat (endPosition t).column).toNat = (endPosition t).column := by
  have hle := column_endPosition_le t
  exact UInt32.toNat_ofNat_of_lt (by omega)

end Text

namespace Lines

/-! ### The line table -/

/-- Two texts are read one after the other, the second one from where the first one ends. -/
lemma collect_append (offset : Nat) (starts : Array Nat) (s t : Text) :
    collect offset starts (s ++ t) = collect (offset + s.length) (collect offset starts s) t := by
  induction s generalizing offset starts with
  | nil => rfl
  | cons c s ih =>
    simp only [List.cons_append, collect, ih, List.length_cons]
    congr 1
    omega

/-- The table only grows, and what it gains lies behind the offset at which reading began. -/
lemma exists_collect_eq_append (offset : Nat) (starts : Array Nat) (t : Text) :
    ∃ later : List Nat, (collect offset starts t).toList = starts.toList ++ later ∧
      ∀ x ∈ later, offset < x := by
  induction t generalizing offset starts with
  | nil => exact ⟨[], by simp [collect], by simp⟩
  | cons c t ih =>
    obtain ⟨later, hlater, hlt⟩ :=
      ih (offset + 1) (if c = '\n' then starts.push (offset + 1) else starts)
    have hlt' : ∀ x ∈ later, offset < x := fun x hx => Nat.lt_of_succ_lt (hlt x hx)
    by_cases hc : c = '\n'
    · refine ⟨(offset + 1) :: later, ?_, ?_⟩
      · simp [collect, hc] at hlater ⊢
        exact hlater
      · intro x hx
        rcases List.mem_cons.mp hx with rfl | hx
        · exact Nat.lt_succ_self offset
        · exact hlt' x hx
    · refine ⟨later, ?_, hlt'⟩
      simpa [collect, hc] using hlater

/-- The table of a text, seen from its end: one entry for each line, none of them behind the end,
and the last one as far before it as the column tells. -/
structure EndsAt (starts : Array Nat) (t : Text) : Prop where
  size : starts.size = (Text.endPosition t).line
  le : ∀ x ∈ starts, x ≤ t.length + 1
  last : starts.getD ((Text.endPosition t).line - 1) 0 + (Text.endPosition t).column = t.length + 2

/-- The table of a text ends with the beginning of its last line. -/
lemma endsAt_collect (t : Text) : EndsAt (collect 1 #[1] t) t := by
  induction t using List.reverseRecOn with
  | nil => exact ⟨rfl, by simp [collect], rfl⟩
  | append_singleton t c ih =>
    rw [collect_append]
    by_cases hc : c = '\n'
    · -- a line feed adds the entry of the line that begins behind it
      refine ⟨?_, ?_, ?_⟩
      · simp [collect, hc, Text.endPosition_concat, ih.size]
      · intro x hx
        simp only [collect, hc, if_true, Array.mem_push] at hx
        simp only [List.length_append, List.length_singleton]
        rcases hx with hx | rfl
        · have := ih.le x hx
          omega
        · omega
      · simp [collect, hc, Text.endPosition_concat, ← ih.size]
        omega
    · refine ⟨?_, ?_, ?_⟩
      · simp [collect, hc, Text.endPosition_concat, ih.size]
      · intro x hx
        simp only [collect, hc, if_false] at hx
        have := ih.le x hx
        simp only [List.length_append, List.length_singleton]
        omega
      · have := ih.last
        simp only [collect, hc, if_false, Text.endPosition_concat, List.length_append,
          List.length_singleton]
        omega

/-- Bisection finds the last index of an initial segment of the table, if that segment is what lies
at or before the offset. -/
lemma bisect_eq_of_iff (starts : Array Nat) (offset : Nat) {lo hi i : Nat} (hlo : lo ≤ i)
    (hhi : i < hi) (h : ∀ k, k < hi → (starts.getD k 0 ≤ offset ↔ k ≤ i)) :
    bisect starts offset lo hi = i := by
  fun_induction bisect starts offset lo hi with
  | case1 lo hi hstop => omega
  | case2 lo hi hgo mid hle ih =>
    have hmid : mid < hi := by omega
    exact ih ((h mid hmid).mp hle) hhi h
  | case3 lo hi hgo mid hgt ih =>
    have hmid : mid < hi := by omega
    have him : i < mid := by
      rw [h mid hmid] at hgt
      omega
    exact ih hlo him fun k hk => h k (hk.trans hmid)

/-- The table of a text is the table of its first part with entries behind the end of that part. -/
lemma exists_starts_append (s t : Text) :
    ∃ later : List Nat, (∀ k, (ofText (s ++ t)).starts.getD k 0 =
        ((collect 1 #[1] s).toList ++ later).getD k 0) ∧
      (ofText (s ++ t)).starts.size = (Text.endPosition s).line + later.length ∧
      ∀ x ∈ later, s.length + 1 < x := by
  obtain ⟨later, hlater, hlt⟩ := exists_collect_eq_append (1 + s.length) (collect 1 #[1] s) t
  rw [← collect_append] at hlater
  refine ⟨later, ?_, ?_, ?_⟩
  · intro k
    rw [← hlater, Array.getD_eq_getD_getElem?, List.getD_eq_getElem?_getD, Array.getElem?_toList]
    rfl
  · rw [← (endsAt_collect s).size, ← Array.length_toList, ← Array.length_toList,
      ← List.length_append, ← hlater]
    rfl
  · intro x hx
    have := hlt x hx
    omega

/-- Bisection at the offset behind the first part of a text finds the line on which it ends. -/
lemma bisect_starts_append (s t : Text) :
    bisect (ofText (s ++ t)).starts (s.length + 1) 0 (ofText (s ++ t)).starts.size =
      (Text.endPosition s).line - 1 := by
  obtain ⟨later, hgetD, hsize, hlt⟩ := exists_starts_append s t
  have hends := endsAt_collect s
  have hlength : (collect 1 #[1] s).toList.length = (Text.endPosition s).line := by
    rw [Array.length_toList, hends.size]
  have hline := Text.one_le_line_endPosition s
  -- the entries of the first part are those at or before the offset, and all others lie behind it
  apply bisect_eq_of_iff _ _ (Nat.zero_le _) (by omega)
  intro k hk
  rw [hgetD]
  by_cases hks : k < (Text.endPosition s).line
  · have hmem : ((collect 1 #[1] s).toList ++ later).getD k 0 ∈ collect 1 #[1] s := by
      rw [List.getD_append _ _ _ _ (by omega), List.getD_eq_getElem _ _ (by omega)]
      simp
    have hle := hends.le _ hmem
    omega
  · have hmem : ((collect 1 #[1] s).toList ++ later).getD k 0 ∈ later := by
      rw [List.getD_append_right _ _ _ _ (by omega), List.getD_eq_getElem _ _ (by omega)]
      simp
    have hgt := hlt _ hmem
    omega

/-- The line table places the offset behind the first part of a text where that part ends. -/
lemma position_append (s t : Text) :
    (ofText (s ++ t)).position (s.length + 1) = Text.endPosition s := by
  obtain ⟨later, hgetD, -, -⟩ := exists_starts_append s t
  have hends := endsAt_collect s
  have hline := Text.one_le_line_endPosition s
  have hclamp : (ofText (s ++ t)).clamp (s.length + 1) = s.length + 1 := by
    simp only [clamp, ofText, List.length_append]
    omega
  have hlength : (collect 1 #[1] s).toList.length = (Text.endPosition s).line := by
    rw [Array.length_toList, hends.size]
  have hstart : (ofText (s ++ t)).starts.getD ((Text.endPosition s).line - 1) 0 =
      (collect 1 #[1] s).getD ((Text.endPosition s).line - 1) 0 := by
    rw [hgetD, List.getD_append _ _ _ _ (by omega), List.getD_eq_getElem?_getD,
      Array.getElem?_toList, Array.getD_eq_getD_getElem?]
  have hcolumn := hends.last
  have hone := Text.one_le_column_endPosition s
  simp only [position, hclamp, bisect_starts_append, hstart]
  -- what is left is arithmetic on the last entry and the place where the part ends
  generalize (collect 1 #[1] s).getD ((Text.endPosition s).line - 1) 0 = start at hcolumn ⊢
  generalize Text.endPosition s = p at hline hcolumn hone ⊢
  obtain ⟨line, column⟩ := p
  simp only at hline hcolumn hone ⊢
  congr 1 <;> omega

/-- The line table places every offset, after clamping it to the text, where the part before it
ends. -/
lemma position_eq_endPosition (t : Text) (offset : Nat) :
    (ofText t).position offset = Text.endPosition (t.take ((ofText t).clamp offset - 1)) := by
  have hclamp : (ofText t).clamp ((ofText t).clamp offset) = (ofText t).clamp offset := by
    simp only [clamp]
    omega
  have hlength : (t.take ((ofText t).clamp offset - 1)).length + 1 = (ofText t).clamp offset := by
    rw [List.length_take]
    simp only [clamp, ofText]
    omega
  have h := position_append (t.take ((ofText t).clamp offset - 1))
    (t.drop ((ofText t).clamp offset - 1))
  rw [List.take_append_drop, hlength] at h
  simpa only [position, hclamp] using h

end Lines

end EdnTokens
