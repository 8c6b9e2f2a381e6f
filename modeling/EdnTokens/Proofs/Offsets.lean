import Mathlib.Data.Nat.PSub
import Mathlib.Data.Prod.Lex
import Mathlib.Order.Interval.Set.Defs
import Mathlib.Order.Monotone.Defs
import EdnTokens.Proofs.Lines

/-!
# Offsets and positions

The position of an offset counts lines and columns in the text in front of it. More text moves this
position forward in the order that compares lines before columns, so an offset can be told from its
position (`SourceFile.position_counts_and_increases`).

Positions are computed by looking entries of the line table up and by subtracting them, with values
that stand in where an entry is missing or a difference would be negative. `Lines.position?` is the
same computation without such values: it fails instead. It never does, because every probe of the
bisection lies inside the table, and the line that is found begins at or before the offset.
-/

namespace EdnTokens

/-- A position as a pair in lexicographic order: the line decides first. -/
def Position.key (p : Position) : ℕ ×ₗ ℕ :=
  toLex (p.line, p.column)

namespace Text

/-- Without a line feed every character counts for the column. -/
lemma column_endPosition_of_notMem {t : Text} (h : '\n' ∉ t) :
    t.endPosition.column = t.length + 1 := by
  have hself : t.lastLine = t := by
    apply List.rtakeWhile_eq_self_iff.mpr
    intro c hc
    rw [bne_iff_ne]
    rintro rfl
    exact h hc
  rw [column_endPosition_eq, hself]

/-- A text ends before every text that goes on behind it. -/
lemma key_endPosition_lt_append (s : Text) {t : Text} (ht : t ≠ []) :
    s.endPosition.key < (endPosition (s ++ t)).key := by
  have hline := line_endPosition_append s t
  have hone := one_le_line_endPosition t
  have hfirst := line_endPosition_eq_one_iff t
  rw [Position.key, Position.key, Prod.Lex.toLex_lt_toLex]
  by_cases hmem : '\n' ∈ t
  · left
    have hlater : t.endPosition.line ≠ 1 := fun h => hfirst.mp h hmem
    simp only
    omega
  · right
    have hcolumn := column_endPosition_append_of_notMem s hmem
    have hlength := column_endPosition_of_notMem hmem
    have hpos : 0 < t.length := List.length_pos_iff.mpr ht
    have hsame := hfirst.mpr hmem
    simp only
    omega

end Text

namespace Lines

/-! ### Without values that stand in -/

/-- Bisection that fails where it would look at an entry that is not there. -/
def bisect? (starts : Array Nat) (offset lo hi : Nat) : Option Nat :=
  if hi ≤ lo + 1 then some lo
  else
    starts[(lo + hi) / 2]?.bind fun start =>
      if start ≤ offset then bisect? starts offset ((lo + hi) / 2) hi
      else bisect? starts offset lo ((lo + hi) / 2)
termination_by hi - lo

/-- Line and column of an offset. This fails if an entry of the table is missing, and if the line
that is found begins behind the offset. -/
def position? (l : Lines) (offset : Nat) : Option Position := do
  let o := l.clamp offset
  let i ← bisect? l.starts o 0 l.starts.size
  let start ← l.starts[i]?
  let behind ← o.psub start
  return ⟨i + 1, behind + 1⟩

/-- Every probe of the bisection lies between two indices of the table. -/
lemma bisect?_eq_some (starts : Array Nat) (offset : Nat) {lo hi : Nat} (h : hi ≤ starts.size) :
    bisect? starts offset lo hi = some (bisect starts offset lo hi) := by
  fun_induction bisect starts offset lo hi with
  | case1 lo hi hstop => rw [bisect?, if_pos hstop]
  | case2 lo hi hgo mid hle ih =>
    have hmid : mid < starts.size := by omega
    rw [Array.getD_eq_getD_getElem?, Array.getElem?_eq_getElem hmid, Option.getD_some] at hle
    rw [bisect?, if_neg hgo, Array.getElem?_eq_getElem hmid, Option.bind_some, if_pos hle]
    exact ih h
  | case3 lo hi hgo mid hgt ih =>
    have hmid : mid < starts.size := by omega
    rw [Array.getD_eq_getD_getElem?, Array.getElem?_eq_getElem hmid, Option.getD_some] at hgt
    rw [bisect?, if_neg hgo, Array.getElem?_eq_getElem hmid, Option.bind_some, if_neg hgt]
    exact ih hmid.le

/-- The text in front of an offset, which is clamped to the text, and the text behind it. -/
lemma exists_split_at_clamp (t : Text) (offset : Nat) :
    ∃ s u, t = s ++ u ∧ s = t.take ((ofText t).clamp offset - 1) ∧
      (ofText t).clamp offset = s.length + 1 := by
  refine ⟨_, _, (List.take_append_drop ((ofText t).clamp offset - 1) t).symm, rfl, ?_⟩
  rw [List.length_take]
  simp only [clamp, ofText]
  omega

/-- Nothing fails on the way to a position. -/
lemma position?_eq_some (t : Text) (offset : Nat) :
    (ofText t).position? offset = some ((ofText t).position offset) := by
  obtain ⟨s, u, rfl, -, hclamp⟩ := exists_split_at_clamp t offset
  have hstart := getElem?_starts_append s u
  have hearlier : s.earlierLines.length ≤ s.length := (List.rdropWhile_prefix _ s).length_le
  have hle : s.earlierLines.length + 1 ≤ s.length + 1 := Nat.succ_le_succ hearlier
  rw [position?, position, hclamp, bisect?_eq_some _ _ le_rfl, bisect_starts_append,
    Array.getD_eq_getD_getElem?]
  simp only [Option.bind_eq_bind, Option.bind_some, hstart, Nat.psub_eq_sub hle, Option.getD_some,
    Option.pure_def]

/-- The line of an offset is the number of lines that begin at or before it. -/
lemma countP_starts (t : Text) (offset : Nat) :
    (ofText t).starts.countP (· ≤ (ofText t).clamp offset) =
      ((ofText t).position offset).line := by
  obtain ⟨s, u, rfl, hs, hclamp⟩ := exists_split_at_clamp t offset
  obtain ⟨later, hlater, hlt⟩ := exists_collect_eq_append (1 + s.length) (collect 1 #[1] s) u
  have hends := endsAt_collect s
  -- all entries of the part before the offset count, and none of those behind it
  have hearlier : (collect 1 #[1] s).toList.countP (· ≤ s.length + 1) = s.endPosition.line := by
    rw [← hends.size, ← Array.length_toList, List.countP_eq_length]
    intro x hx
    exact decide_eq_true (hends.le x (Array.mem_toList_iff.mp hx))
  have hnone : later.countP (· ≤ s.length + 1) = 0 := by
    rw [List.countP_eq_zero]
    intro x hx
    have := hlt x hx
    simp only [decide_eq_true_eq]
    omega
  rw [position_eq_endPosition, ← hs, hclamp, ← Array.countP_toList, ofText, collect_append, hlater,
    List.countP_append, hearlier, hnone, Nat.add_zero]

end Lines

namespace SourceFile

variable (file : SourceFile)

/-- The position of an offset is where the text in front of it ends. -/
lemma position_eq_endPosition (offset : Nat) :
    file.position offset =
      Text.endPosition (file.content.take (max 1 (min offset (file.content.length + 1)) - 1)) := by
  rw [position, file.lines_eq, Lines.position_eq_endPosition]
  rfl

/-- Later offsets in a text have later positions. -/
lemma strictMonoOn_key_position :
    StrictMonoOn (fun offset => (file.position offset).key)
      (Set.Icc 1 (file.content.length + 1)) := by
  intro a ⟨hone, _⟩ b ⟨_, hlast⟩ hlt
  -- what lies between the two offsets is not empty, and every character moves the end of a text on
  have hbetween : (file.content.drop (a - 1)).take (b - a) ≠ [] := by
    apply List.ne_nil_of_length_pos
    rw [List.length_take, List.length_drop]
    omega
  have hsplit : file.content.take (b - 1) =
      file.content.take (a - 1) ++ (file.content.drop (a - 1)).take (b - a) := by
    rw [← List.take_add]
    congr 1
    omega
  have hclamp : ∀ o, 1 ≤ o → o ≤ file.content.length + 1 →
      max 1 (min o (file.content.length + 1)) = o := by
    intro o _ _
    omega
  simp only [position_eq_endPosition]
  rw [hclamp a hone (by omega), hclamp b (by omega) hlast, hsplit]
  exact Text.key_endPosition_lt_append _ hbetween

/-- The position of an offset counts the lines and columns of the text in front of it, after the
offset is clamped to the text. Nothing fails while it is looked up, and the line is the number of
lines that begin at or before the offset. Later offsets in the text have later positions, so
different ones have different positions. -/
theorem position_counts_and_increases :
    (∀ offset, ∃ o before, o = max 1 (min offset (file.content.length + 1)) ∧
      before = file.content.take (o - 1) ∧
      file.position offset =
        ⟨1 + before.count '\n', 1 + (before.rtakeWhile (· != '\n')).length⟩ ∧
      file.lines.position? offset = some (file.position offset) ∧
      file.lines.starts.countP (· ≤ o) = (file.position offset).line) ∧
    StrictMonoOn (fun offset => (file.position offset).key)
      (Set.Icc 1 (file.content.length + 1)) ∧
    Set.InjOn file.position (Set.Icc 1 (file.content.length + 1)) := by
  refine ⟨fun offset => ⟨_, _, rfl, rfl, ?_, ?_, ?_⟩, file.strictMonoOn_key_position, ?_⟩
  · rw [position_eq_endPosition, Nat.add_comm 1, Nat.add_comm 1, List.rtakeWhile,
      List.length_reverse]
    rfl
  · rw [position, file.lines_eq]
    exact Lines.position?_eq_some file.content offset
  · rw [position, file.lines_eq]
    exact Lines.countP_starts file.content offset
  · -- equal positions have equal keys, and keys grow
    intro a ha b hb hab
    apply file.strictMonoOn_key_position.injOn ha hb
    exact congrArg Position.key hab

/-- Offsets far behind the end have the position of the end. -/
example : SourceFile.position { name := "a.edn", content := "λx\nµ".toList } 99 = ⟨2, 2⟩ := by
  decide +kernel

end SourceFile

end EdnTokens
