import Mathlib.Tactic.Common
import EdnTokens.Token.Tiling

/-!
# The check of tilings is exact

A list of tokens passes the check if and only if it tiles the text, whatever list that is and
wherever it comes from (`Token.no_fault_iff_tiles`). The pass over the tokens settles
their places together with the texts of end tokens (`Token.placementFault?_eq_none_iff`); the two
tests behind it settle where end tokens stand (`Token.endsWithEof_iff`), and the last one compares
the texts. That the end token stands right behind the last character is not tested: it follows from
the places and texts of the tokens before it (`Consecutive.of_append`).
-/

namespace EdnTokens

/-! ### Consecutive tokens -/

/-- Tokens stand one behind the other from an offset on if the first one stands there and the others
stand so behind it. -/
lemma consecutive_cons_iff {offset : Nat} {t : Token} {ts : List Token} :
    Consecutive offset (t :: ts) ↔ t.start = offset ∧ Consecutive (offset + t.length) ts := by
  constructor
  · intro h
    cases h with
    | cons h => exact ⟨rfl, h⟩
  · rintro ⟨rfl, h⟩
    exact .cons h

/-- What stands behind consecutive tokens begins as far on as their texts are long. -/
lemma Consecutive.of_append {offset : Nat} {ts us : List Token}
    (h : Consecutive offset (ts ++ us)) :
    Consecutive (offset + (ts.flatMap Token.text).length) us := by
  induction ts generalizing offset with
  | nil => exact h
  | cons t ts ih =>
    have hrest : Consecutive (offset + t.length) (ts ++ us) := (consecutive_cons_iff.mp h).2
    have hplace : offset + ((t :: ts).flatMap Token.text).length =
        offset + t.length + (ts.flatMap Token.text).length := by
      rw [List.flatMap_cons, List.length_append, Token.length, Nat.add_assoc]
    rw [hplace]
    exact ih hrest

/-- The end token of a tiling stands right behind the last character. -/
lemma Tiles.start_getLast? {source : Text} {tokens : List Token} (h : Tiles source tokens) :
    tokens.getLast?.map Token.start = some (source.length + 1) := by
  obtain ⟨body, last, rfl, -, htext, -⟩ := h.ends
  have hbody : body.flatMap Token.text = source := by
    rw [← h.texts, List.flatMap_append, List.flatMap_singleton, htext, List.append_nil]
  have hlast : last.start = 1 + source.length := by
    rw [← hbody]
    exact (consecutive_cons_iff.mp h.consecutive.of_append).1
  rw [List.getLast?_concat, Option.map_some, hlast, Nat.add_comm]

/-! ### The tests -/

namespace Token

/-- The pass over the tokens finds nothing exactly if they are consecutive and no end token has a
text. -/
lemma placementFault?_eq_none_iff {offset : Nat} {ts : List Token} :
    placementFault? offset ts = none ↔
      Consecutive offset ts ∧ ∀ t ∈ ts, t.kind = .eof → t.text = [] := by
  induction ts generalizing offset with
  | nil => simp [placementFault?, Consecutive.nil]
  | cons t ts ih =>
    rw [placementFault?, consecutive_cons_iff, List.forall_mem_cons]
    by_cases hstart : t.start = offset
    · by_cases htext : t.kind = .eof → t.text = []
      · have hpass : ¬ (t.kind = .eof ∧ t.text ≠ []) := fun h => h.2 (htext h.1)
        rw [if_neg (not_not_intro hstart), if_neg hpass, ih]
        tauto
      · have hfault : t.kind = .eof ∧ t.text ≠ [] := Classical.not_imp.mp htext
        rw [if_neg (not_not_intro hstart), if_pos hfault]
        simp [htext]
    · rw [if_pos hstart]
      simp [hstart]

/-- The tests of the last kind and of the number of end tokens leave one end token, the last. -/
lemma endsWithEof_iff {tokens : List Token} :
    tokens.getLast?.map Token.kind = some .eof ∧ tokens.countP isEof = 1 ↔
      ∃ body last, tokens = body ++ [last] ∧ last.kind = .eof ∧ ∀ t ∈ body, t.kind ≠ .eof := by
  constructor
  · rintro ⟨hkind, hcount⟩
    obtain ⟨last, hlast, heof⟩ := Option.map_eq_some_iff.mp hkind
    obtain ⟨body, rfl⟩ := List.getLast?_eq_some_iff.mp hlast
    have hone : isEof last = true := beq_iff_eq.mpr heof
    rw [List.countP_append, List.countP_singleton, if_pos hone] at hcount
    have hnone : ∀ t ∈ body, ¬ isEof t = true := List.countP_eq_zero.mp (by omega)
    exact ⟨body, last, rfl, heof, fun t ht h => hnone t ht (beq_iff_eq.mpr h)⟩
  · rintro ⟨body, last, rfl, heof, hbody⟩
    have hone : isEof last = true := beq_iff_eq.mpr heof
    have hnone : body.countP isEof = 0 :=
      List.countP_eq_zero.mpr fun t ht h => hbody t ht (beq_iff_eq.mp h)
    rw [List.getLast?_concat, List.countP_append, List.countP_singleton, if_pos hone, hnone]
    exact ⟨congrArg some heof, rfl⟩

/-- No fault is found exactly if each of the tests passes. -/
lemma tilingFault?_eq_none_iff_tests {source : Text} {tokens : List Token} :
    tilingFault? source tokens = none ↔
      placementFault? 1 tokens = none ∧
        (tokens.getLast?.map Token.kind = some .eof ∧ tokens.countP isEof = 1) ∧
        tokens.flatMap Token.text = source := by
  unfold tilingFault?
  cases placementFault? 1 tokens with
  | some fault => simp
  | none =>
    dsimp only
    split_ifs with hkind hcount htexts
    · simp [hkind]
    · simp [hcount]
    · simp [htexts]
    · simp_all

/-- The check of a list of tokens against a text finds no fault if and only if the list tiles the
text: there is one end token, which is the last one and has no text, the first token starts at
offset one and every other where the one before it ends, and the texts make up the text. The end
token then stands right behind the last character of the text. -/
theorem no_fault_iff_tiles (source : Text) (tokens : List Token) :
    (tilingFault? source tokens = none ↔ Tiles source tokens) ∧
      (tilingFault? source tokens = none →
        tokens.getLast?.map Token.start = some (source.length + 1)) := by
  have hexact : tilingFault? source tokens = none ↔ Tiles source tokens := by
    rw [tilingFault?_eq_none_iff_tests, placementFault?_eq_none_iff, endsWithEof_iff]
    constructor
    · -- that the end token is empty is tested where all tokens are placed
      rintro ⟨⟨hplaces, hempty⟩, ⟨body, last, rfl, heof, hbody⟩, htexts⟩
      have hlast : last.text = [] := hempty last (by simp) heof
      exact ⟨hplaces, htexts, body, last, rfl, heof, hlast, hbody⟩
    · rintro ⟨hplaces, htexts, body, last, rfl, heof, hlast, hbody⟩
      refine ⟨⟨hplaces, ?_⟩, ⟨body, last, rfl, heof, hbody⟩, htexts⟩
      intro t ht hkind
      rw [List.mem_append, List.mem_singleton] at ht
      rcases ht with ht | rfl
      · exact absurd hkind (hbody t ht)
      · exact hlast
  exact ⟨hexact, fun h => (hexact.mp h).start_getLast?⟩

/-- Tokens that no reading of the text yields, one of them without a text, pass the check as well if
their places and texts are right. -/
theorem no_fault_iff_tiles_foreign :
    tilingFault? "λ)".toList [⟨.number, "λ)".toList, 1, .empty⟩, ⟨.set, [], 3, .empty⟩, .eof 3] =
        none ∧
      Tiles "λ)".toList [⟨.number, "λ)".toList, 1, .empty⟩, ⟨.set, [], 3, .empty⟩, .eof 3] ∧
      ([⟨.number, "λ)".toList, 1, .empty⟩, ⟨.set, [], 3, .empty⟩, .eof 3] :
        List Token).getLast?.map Token.start = some 3 := by
  have hpass : tilingFault? "λ)".toList
      [⟨.number, "λ)".toList, 1, .empty⟩, ⟨.set, [], 3, .empty⟩, .eof 3] = none := by decide
  have hexact := no_fault_iff_tiles "λ)".toList
    [⟨.number, "λ)".toList, 1, .empty⟩, ⟨.set, [], 3, .empty⟩, .eof 3]
  exact ⟨hpass, hexact.1.mp hpass, hexact.2 hpass⟩

end Token

end EdnTokens
