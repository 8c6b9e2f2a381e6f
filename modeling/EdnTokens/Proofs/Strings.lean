import Mathlib.Algebra.Group.Nat.Even
import Mathlib.Data.List.DropRight
import Mathlib.Order.Bounds.Basic
import EdnTokens.Proofs.Lexemes
import EdnTokens.Proofs.Verdicts

/-!
# Where strings close

The scanner of strings reads forward: a backslash takes the next character with it, and the first
quote that it meets on its own closes the string. Which quote this is can also be told by looking
back from each quote. Behind an even number of backslashes, counted back as far as they go, no
backslash is left to take the quote with it. The first quote of this sort closes the string
(`Session.nextToken_ofText_quote`).

The two readings agree because a character without a backslash before it does not change how many
backslashes stand before a later quote, and a hidden character and its backslash do not change
whether their number is even.
-/

namespace EdnTokens

namespace Text

/-! ### Counting backslashes -/

/-- Number of backslashes at the end of a text. -/
def backslashes (t : Text) : Nat :=
  (t.rtakeWhile (· == '\\')).length

/-- One more backslash at the end counts. -/
lemma backslashes_concat_self (t : Text) : backslashes (t ++ ['\\']) = t.backslashes + 1 := by
  rw [backslashes, List.rtakeWhile_concat_pos _ _ _ (by rfl), List.length_append]
  rfl

/-- Any other character at the end ends the run of backslashes. -/
lemma backslashes_concat_of_ne {c : Char} (hc : c ≠ '\\') (t : Text) :
    backslashes (t ++ [c]) = 0 := by
  rw [backslashes, List.rtakeWhile_concat_neg _ _ _ (by simpa using hc)]
  rfl

/-- A character that is no backslash adds none to those at the end. -/
lemma backslashes_cons_of_ne {c : Char} (hc : c ≠ '\\') (t : Text) :
    backslashes (c :: t) = t.backslashes := by
  induction t using List.reverseRecOn with
  | nil => exact backslashes_concat_of_ne hc []
  | append_singleton t d ih =>
    rw [← List.cons_append]
    by_cases hd : d = '\\'
    · rw [hd, backslashes_concat_self, backslashes_concat_self, ih]
    · rw [backslashes_concat_of_ne hd, backslashes_concat_of_ne hd]

/-- A backslash and the character that it hides leave the number of those at the end even or
odd, even if that character is a backslash too. -/
lemma even_backslashes_hidden_iff (c : Char) (t : Text) :
    Even (backslashes ('\\' :: c :: t)) ↔ Even t.backslashes := by
  induction t using List.reverseRecOn with
  | nil =>
    by_cases hc : c = '\\'
    · rw [hc]
      decide
    · rw [show '\\' :: [c] = ['\\'] ++ [c] from rfl, backslashes_concat_of_ne hc]
      rfl
  | append_singleton t d ih =>
    rw [← List.cons_append, ← List.cons_append]
    by_cases hd : d = '\\'
    · rw [hd, backslashes_concat_self, backslashes_concat_self, Nat.even_add_one,
        Nat.even_add_one, ih]
    · rw [backslashes_concat_of_ne hd, backslashes_concat_of_ne hd]

/-! ### Closing quotes -/

/-- The text behind an opening quote has a quote at an index, with an even number of backslashes
right before it. The opening quote itself ends the count. -/
def ClosesAt (t : Text) (i : Nat) : Prop :=
  t[i]? = some '"' ∧ Even (backslashes (t.take i))

/-- A character that is no backslash closes a string if it is a quote, and hides nothing. -/
lemma closesAt_cons_iff {c : Char} (hc : c ≠ '\\') (t : Text) (i : Nat) :
    ClosesAt (c :: t) i ↔ i = 0 ∧ c = '"' ∨ ∃ j, i = j + 1 ∧ t.ClosesAt j := by
  cases i with
  | zero => simp [ClosesAt, backslashes]
  | succ i => simp [ClosesAt, backslashes_cons_of_ne hc]

/-- A backslash and the character behind it close no string, and hide nothing that follows. -/
lemma closesAt_hidden_iff (c : Char) (t : Text) (i : Nat) :
    ClosesAt ('\\' :: c :: t) i ↔ ∃ j, i = j + 2 ∧ t.ClosesAt j := by
  match i with
  | 0 => simp [ClosesAt]
  | 1 =>
    have hone : backslashes ['\\'] = 1 := by decide
    simp [ClosesAt, hone]
  | i + 2 => simp [ClosesAt, even_backslashes_hidden_iff]

end Text

namespace Language

open Text

/-! ### The inside of a string -/

/-- No backslash at the end of the inside of a string is left to hide what follows. -/
lemma StringBody.even_backslashes {inside : Text} (h : StringBody inside) :
    Even inside.backslashes := by
  induction h with
  | nil => decide
  | plain _ hb _ ih => rwa [backslashes_cons_of_ne hb]
  | hidden _ ih => rwa [even_backslashes_hidden_iff]

/-- The inside of a string closes it nowhere. -/
lemma StringBody.not_closesAt {inside : Text} (h : StringBody inside) (rest : Text) {i : Nat}
    (hi : i < inside.length) : ¬ ClosesAt (inside ++ rest) i := by
  induction h generalizing i with
  | nil => exact absurd hi (Nat.not_lt_zero i)
  | plain hq hb _ ih =>
    rw [List.cons_append, closesAt_cons_iff hb]
    rintro (⟨-, hquote⟩ | ⟨j, rfl, hj⟩)
    · exact hq hquote
    · exact ih (Nat.lt_of_succ_lt_succ hi) hj
  | hidden _ ih =>
    rw [List.cons_append, List.cons_append, closesAt_hidden_iff]
    rintro ⟨j, rfl, hj⟩
    exact ih (by simpa using hi) hj

end Language

namespace Scan

open EdnTokens.Language Text

/-- Where the scanner finds the end of a string, looking back finds the first closing quote. -/
lemma isLeast_of_closing?_eq_some {t : Text} {n : Nat} (h : closing? 0 t = some n) :
    ∃ i, IsLeast {i | t.ClosesAt i} i ∧ n = i + 1 := by
  obtain ⟨inside, rest, hinside, rfl, rfl⟩ := exists_of_closing? h
  refine ⟨inside.length, ⟨⟨?_, ?_⟩, ?_⟩, by rw [Nat.zero_add]⟩
  · rw [List.getElem?_append_right le_rfl, Nat.sub_self]
    rfl
  · rw [List.take_left]
    exact hinside.even_backslashes
  · intro j hj
    by_contra hlt
    exact hinside.not_closesAt _ (Nat.not_le.mp hlt) hj

/-- Where the scanner finds no end of a string, looking back finds no closing quote. -/
lemma not_closesAt_of_closing?_eq_none {taken : Nat} {t : Text} (h : closing? taken t = none)
    (i : Nat) : ¬ t.ClosesAt i := by
  fun_induction closing? taken t generalizing i with
  | case1 => simp [ClosesAt]
  | case2 => cases h
  | case3 => cases i <;> simp [ClosesAt]
  | case4 taken c t ih =>
    rw [closesAt_hidden_iff]
    rintro ⟨j, rfl, hj⟩
    exact ih h j hj
  | case5 taken c t hq hlast hb ih =>
    -- a backslash would be the last character or hide the next one, and both cases are passed
    have hc : c ≠ '\\' := by
      rintro rfl
      cases t with
      | nil => exact hlast rfl rfl
      | cons d u => exact hb d u rfl rfl
    rw [closesAt_cons_iff hc]
    rintro (⟨-, rfl⟩ | ⟨j, rfl, hj⟩)
    · exact hq rfl
    · exact ih h j hj

end Scan

namespace Lexeme

/-- The first lexeme of a text that begins with a quote and goes on with a string. -/
lemma first_quote_of_closing?_eq_some (strict : Bool) {t : Text} {i : Nat}
    (hclose : Scan.closing? 0 t = some (i + 1)) :
    first strict ('"' :: t) = ⟨'"' :: t.take (i + 1), .token .string⟩ := by
  have hnext : Scan.next strict ('"' :: t) = ⟨i + 2, .token .string⟩ := by
    rw [Scan.next_quote, Scan.string, List.drop_succ_cons, List.drop_zero, hclose]
  rw [first, hnext, List.take_succ_cons]

/-- The first lexeme of a text that begins with a quote and never closes it is the whole text. -/
lemma first_quote_of_closing?_eq_none (strict : Bool) {t : Text}
    (hclose : Scan.closing? 0 t = none) : first strict ('"' :: t) = ⟨'"' :: t, .error none⟩ := by
  have hnext : Scan.next strict ('"' :: t) = ⟨('"' :: t).length, .error none⟩ := by
    rw [Scan.next_quote, Scan.string, List.drop_succ_cons, List.drop_zero, hclose]
  rw [first, hnext, List.take_length]

end Lexeme

namespace Session

/-- A text that begins with a quote begins with a string up to the first closing quote. Without
such a quote all of it is malformed, has no error type and is read to its end. -/
theorem nextToken_ofText_quote (options : Options) (collector : Collector) (t : Text) :
    let r := (ofText options collector ('"' :: t)).nextToken
    (∃ i, IsLeast {i | t.ClosesAt i} i ∧
      r.1 = { kind := .string, text := '"' :: t.take (i + 1), start := 1 } ∧
      r.2.cursor.rest = t.drop (i + 1)) ∨
    (∀ i, ¬ t.ClosesAt i) ∧
      r.1 = { kind := .lexError, text := '"' :: t, start := 1 } ∧
      r.1.errorType? = none ∧ r.2.cursor.atEnd = true := by
  intro r
  have hcursor := Cursor.ofText_eq_behind ('"' :: t)
  have htoken := fst_nextToken (s := ofText options collector ('"' :: t)) hcursor
  have hbehind := cursor_nextToken_eq_behind (s := ofText options collector ('"' :: t)) hcursor
  -- the scanner looks ahead and the condition looks back; they find the same quote, or both none
  cases hclose : Scan.closing? 0 t with
  | some n =>
    obtain ⟨i, hleast, rfl⟩ := Scan.isLeast_of_closing?_eq_some hclose
    obtain ⟨hquote, -⟩ := hleast.1
    obtain ⟨hlt, -⟩ := List.getElem?_eq_some_iff.mp hquote
    have hlength : ('"' :: t.take (i + 1)).length = i + 2 := by
      rw [List.length_cons, List.length_take_of_le hlt]
    rw [Lexeme.first_quote_of_closing?_eq_some _ hclose] at htoken hbehind
    refine .inl ⟨i, hleast, htoken, ?_⟩
    rw [hbehind, Cursor.behind, hlength, List.drop_succ_cons]
  | none =>
    rw [Lexeme.first_quote_of_closing?_eq_none _ hclose] at htoken hbehind
    refine .inr ⟨Scan.not_closesAt_of_closing?_eq_none hclose, htoken, ?_, ?_⟩
    · rw [htoken]
      rfl
    · rw [hbehind, Cursor.behind, List.drop_length]
      rfl

/-- Two backslashes hide each other, so the quote behind them closes the string. -/
example : (ofText {} .empty "\"\\\\\" \"".toList).nextToken.1.text = "\"\\\\\"".toList := by
  decide

end Session

end EdnTokens
