import Mathlib.Data.List.TakeWhile
import Mathlib.Tactic.Common
import EdnTokens.Lexer.Extent

/-!
# Longest prefixes

A scanner that never gives characters back finds the longest prefix in a language only if every
choice it makes is forced by the next character. Here this is said of extents: `Measures L t n`
tells that the first `n` characters of `t` are the longest prefix of `t` in `L`. Runs measure the
texts made of one class of characters, and one extent behind another measures a concatenation as
soon as stopping the first one early is never rewarded (`Extent.measures_followedBy`).
-/

namespace EdnTokens

/-- The longest prefix of `t` that belongs to `L` is `w`. -/
structure Longest (L : Text → Prop) (t w : Text) : Prop where
  isPrefix : w <+: t
  mem : L w
  maximal : ∀ v, v <+: t → L v → v.length ≤ w.length

/-- The longest prefix of `t` that belongs to `L` has `n` characters. -/
structure Measures (L : Text → Prop) (t : Text) (n : Nat) : Prop where
  le : n ≤ t.length
  mem : L (t.take n)
  maximal : ∀ v rest, t = v ++ rest → L v → v.length ≤ n

namespace Measures

variable {L M : Text → Prop} {t : Text} {n : Nat}

/-- The prefix of the measured length is the longest one. -/
lemma longest (h : Measures L t n) : Longest L t (t.take n) where
  isPrefix := List.take_prefix n t
  mem := h.mem
  maximal := by
    rintro v ⟨rest, rfl⟩ hv
    rw [List.length_take, min_eq_left h.le]
    exact h.maximal v rest rfl hv

/-- A text that belongs to the language is measured whole. -/
lemma eq_length (h : Measures L t n) (ht : L t) : n = t.length :=
  le_antisymm h.le (h.maximal t [] (List.append_nil t).symm ht)

/-- There is one longest prefix. -/
lemma unique {m : Nat} (h : Measures L t n) (h' : Measures L t m) : n = m := by
  have hn := h'.maximal _ _ (List.take_append_drop n t).symm h.mem
  have hm := h.maximal _ _ (List.take_append_drop m t).symm h'.mem
  rw [List.length_take, min_eq_left h.le] at hn
  rw [List.length_take, min_eq_left h'.le] at hm
  exact le_antisymm hn hm

/-- Two languages with the same texts have the same longest prefixes. -/
lemma congr (h : Measures L t n) (hLM : ∀ v, L v ↔ M v) : Measures M t n where
  le := h.le
  mem := (hLM _).mp h.mem
  maximal v rest ht hv := h.maximal v rest ht ((hLM v).mpr hv)

end Measures

namespace Extent

variable {m n : Extent} {t : Text}

/-! ### Runs -/

/-- A run takes what the characters at the beginning of the text allow. -/
lemma take_run (p : Char → Bool) (t : Text) : t.take (run p t) = t.takeWhile p :=
  (List.prefix_iff_eq_take.mp ( List.takeWhile_prefix p)).symm

/-- What a run leaves is the rest from its first other character on. -/
lemma drop_run (p : Char → Bool) (t : Text) : t.drop (run p t) = t.dropWhile p := by
  rw [← List.append_right_inj (t.takeWhile p), List.takeWhile_append_dropWhile, ← take_run,
    List.take_append_drop]

/-- A run goes on behind a text that belongs to its class. -/
lemma run_append_of_forall {p : Char → Bool} {v : Text} (h : ∀ c ∈ v, p c) (rest : Text) :
    run p (v ++ rest) = v.length + run p rest := by
  rw [run, List.takeWhile_append_of_pos h, List.length_append, run]

/-- A run takes its first character and the run behind it, or nothing. -/
lemma run_cons (p : Char → Bool) (c : Char) (t : Text) :
    run p (c :: t) = if p c then run p t + 1 else 0 := by
  by_cases hc : p c = true
  · simp [run, hc]
  · simp [run, hc]

/-- A run measures the texts made of its class of characters. -/
lemma measures_run (p : Char → Bool) (t : Text) :
    Measures (fun w => ∀ c ∈ w, p c) t (run p t) where
  le := fits_run p t
  mem := by
    rw [take_run]
    intro c hc
    exact List.mem_takeWhile_imp hc
  maximal := by
    rintro v rest rfl hv
    rw [run_append_of_forall hv]
    exact Nat.le_add_right _ _

/-! ### One extent behind another -/

/-- Two extents take what the first one takes and what the second one takes of the rest. -/
lemma take_followedBy (m n : Extent) (t : Text) :
    t.take (followedBy m n t) =
      t.take (m t) ++ (t.drop (m t)).take (n (t.drop (m t))) :=
  List.take_add

/-- It makes no difference in which order extents are put together. -/
lemma followedBy_assoc (m n k : Extent) :
    followedBy (followedBy m n) k = followedBy m (followedBy n k) := by
  funext t
  simp only [followedBy, List.drop_drop]
  omega

/-- Two extents in a row measure a concatenation, if no shorter first part makes up for its length
in the second. -/
lemma measures_followedBy {L M : Text → Prop} (hm : Measures L t (m t))
    (hn : Measures M (t.drop (m t)) (n (t.drop (m t))))
    (hearly : ∀ x y rest, t = x ++ (y ++ rest) → L x → M y → x.length < m t →
      x.length + y.length ≤ m t) :
    Measures (fun w => ∃ x y, L x ∧ M y ∧ w = x ++ y) t (followedBy m n t) where
  le := by
    have h := hn.le
    have h' := hm.le
    rw [List.length_drop] at h
    simp only [followedBy]
    omega
  mem := ⟨_, _, hm.mem, hn.mem, take_followedBy m n t⟩
  maximal := by
    rintro v rest ht ⟨x, y, hx, hy, rfl⟩
    rw [List.append_assoc] at ht
    rw [List.length_append, followedBy]
    -- a competitor either stops its first part early, or splits where the extents do
    rcases (hm.maximal x _ ht hx).lt_or_eq with hlt | heq
    · exact (hearly x y rest ht hx hy hlt).trans (Nat.le_add_right _ _)
    · have hdrop : t.drop (m t) = y ++ rest := by
        rw [← heq, ht, List.drop_left]
      have hle := hn.maximal y rest hdrop hy
      omega

/-! ### One optional character -/

/-- One character is taken if it satisfies the condition. -/
lemma option_cons (p : Char → Bool) (c : Char) (t : Text) :
    option p (c :: t) = if p c then 1 else 0 := by
  simp only [option, after, Nat.zero_add]

/-- An optional character measures the texts with at most one character, if that is of its class. -/
lemma measures_option (p : Char → Bool) (t : Text) :
    Measures (fun w => w = [] ∨ ∃ c, p c ∧ w = [c]) t (option p t) where
  le := fits_option p t
  mem := by
    cases t with
    | nil => exact Or.inl rfl
    | cons c t =>
      rw [option_cons]
      by_cases hc : p c = true
      · exact Or.inr ⟨c, hc, by simp [hc]⟩
      · exact Or.inl (by simp [hc])
  maximal := by
    rintro v rest rfl (rfl | ⟨c, hc, rfl⟩)
    · exact Nat.zero_le _
    · simp [option_cons, hc]

end Extent

end EdnTokens
