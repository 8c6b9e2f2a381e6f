import EdnTokens.Proofs.Lexemes
import EdnTokens.Token.Tiling

/-!
# Token streams tile their text

Whatever a text is and however it is read, its tokens follow each other without gap or overlap, make
up the text and end with the one end token. Lexemes laid out from an offset are consecutive by
construction; that the texts add up and that no token but the last is empty comes from the way
in which a text is split.
-/

namespace EdnTokens

open Lexeme

/-- Lexemes are placed one directly behind the other. -/
lemma consecutive_place (start : Nat) (ls : List Lexeme) : Consecutive start (place start ls) := by
  induction ls generalizing start with
  | nil => exact .cons (t := .eof start) (.nil _)
  | cons l ls ih => exact .cons (t := l.token start) (ih (start + l.text.length))

/-- The tokens of a text tile it: they stand one directly behind the other from offset one on, their
texts make up the text, and the one end token comes last. It stands behind the last character, and
no other token is empty. -/
theorem tokens_ofText_tile (options : Options) (collector : Collector) (source : Text) :
    Tiles source (Lexed.ofText options collector source).tokens ∧
      (Lexed.ofText options collector source).tokens.getLast? =
        some (.eof (source.length + 1)) ∧
      ∀ t ∈ (Lexed.ofText options collector source).tokens, t.kind ≠ .eof → t.text ≠ [] := by
  rw [tokens_ofText]
  set ls := lexemes options.strictEscapes source with hls
  have htexts : ls.flatMap Lexeme.text = source := flatMap_text_lexemes _ source
  have hlexemes : ∀ l ∈ ls, l.text ≠ [] ∧ l.kind ≠ .eof :=
    forall_mem_lexemes (fun t ht => ⟨text_first_ne_nil _ ht, kind_first_ne_eof _ ht⟩) source
  -- what is said of the tokens before the end token is said of lexemes, wherever they are placed
  obtain ⟨body, hbody, hmem⟩ := exists_place_eq_append 1 ls
  rw [htexts, Nat.add_comm] at hbody
  have hinner : ∀ t ∈ body, t.text ≠ [] ∧ t.kind ≠ .eof := by
    intro t ht
    obtain ⟨l, hl, offset, rfl⟩ := hmem t ht
    exact hlexemes l hl
  refine ⟨⟨consecutive_place 1 ls, ?_, ?_⟩, ?_, ?_⟩
  · rw [flatMap_text_place, htexts]
  · exact ⟨body, _, hbody, rfl, rfl, fun t ht => (hinner t ht).2⟩
  · rw [hbody, List.getLast?_concat]
  · intro t ht hkind
    rw [hbody, List.mem_append, List.mem_singleton] at ht
    rcases ht with ht | rfl
    · exact (hinner t ht).1
    · exact absurd rfl hkind

end EdnTokens
