import Mathlib.Tactic.Common
import EdnTokens.Lexer.Cursor
import EdnTokens.Proofs.Position

/-!
# Cursors behind a text

The place of a cursor is determined by the text it has passed: bytes, characters, lines and columns
are all counted there. `Cursor.behind passed rest` is the cursor that stands between two texts, the
beginning of a text is such a cursor, and moving keeps being one. Lines and columns are 32-bit words
and may wrap around; the equations below hold all the same, because wrapping commutes with counting.
-/

namespace EdnTokens

namespace Cursor

/-- The cursor between two texts. -/
def behind (passed rest : Text) : Cursor where
  source := passed ++ rest
  rest
  offset := passed.utf8Length
  position := passed.length + 1
  line := .ofNat passed.endPosition.line
  column := .ofNat passed.endPosition.column

/-- At the beginning of a text nothing is passed. -/
lemma ofText_eq_behind (t : Text) : ofText t = behind [] t := rfl

/-! ### Moving -/

/-- Moving by a character takes it over to the text that is passed. -/
lemma advance_behind (passed : Text) (c : Char) (rest : Text) :
    (behind passed (c :: rest)).advance = behind (passed ++ [c]) rest := by
  by_cases hc : c = '\n'
  · simp [advance, behind, hc, Text.endPosition_concat, UInt32.ofNat_add]
  · simp [advance, behind, hc, Text.endPosition_concat, UInt32.ofNat_add]

/-- At the end of the text there is nowhere to move. -/
@[simp] lemma advanceBy_behind_nil (passed : Text) (n : Nat) :
    (behind passed []).advanceBy n = behind passed [] := by
  cases n with
  | zero => rfl
  | succ n => simp [advanceBy, atEnd, behind]

/-- Moving on adds the characters that were there to what has been passed. -/
lemma advanceBy_behind (passed rest : Text) (n : Nat) :
    (behind passed rest).advanceBy n = behind (passed ++ rest.take n) (rest.drop n) := by
  induction n generalizing passed rest with
  | zero => simp [advanceBy]
  | succ n ih =>
    cases rest with
    | nil => simp
    | cons c rest =>
      have hmore : ¬ (behind passed (c :: rest)).atEnd = true := by
        simp [atEnd, behind]
      rw [advanceBy, if_neg hmore, advance_behind, ih, List.take_succ_cons, List.drop_succ_cons,
        List.append_assoc, List.singleton_append]

/-! ### Slices -/

/-- The slice from the byte at which a cursor stood before is what lies between. -/
lemma sliceFrom?_behind (passed t rest : Text) :
    (behind (passed ++ t) rest).sliceFrom? passed.utf8Length = some t := by
  rw [sliceFrom?, behind, Nat.add_sub_cancel, List.take_left, Text.dropBytes?_utf8Length_append]

end Cursor

end EdnTokens
