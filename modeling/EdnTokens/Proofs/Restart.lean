import EdnTokens.Proofs.Lexemes

/-!
# Restarting at a token

Reading may begin anew at the start of any token. The tokens of the rest of a text are those of the
whole text from there on, moved back by what has been passed, and so are the diagnostics. Lines are
counted from the line of the new beginning, and columns change only on that line.

Nothing before the new beginning matters, because the lexemes of a text do not depend on its place.
What is left is to follow the coordinates: the end of a text behind another one is the end of both
(`Text.endPosition`), and the line table finds the place of the new beginning.
-/

namespace EdnTokens

open Lexeme

/-! ### Moving back -/

/-- A token in a text without its first `n` characters. -/
def Token.movedBack (n : Nat) (t : Token) : Token :=
  { t with start := t.start - n }

/-- A span in a text without its first `n` characters, if they end at `origin`. Only what stands on
the line of `origin` has its column moved. -/
def Span.movedBack (n : Nat) (origin : Position) (s : Span) : Span :=
  { s with
    start := s.start - n
    stop := s.stop - n
    line := .ofNat (s.line.toNat - (origin.line - 1))
    column :=
      if s.line.toNat = origin.line then .ofNat (s.column.toNat - (origin.column - 1))
      else s.column }

/-- A diagnostic in a text without its first `n` characters, if they end at `origin`. -/
def Diagnostic.movedBack (n : Nat) (origin : Position) (d : Diagnostic) : Diagnostic :=
  { d with span := d.span.movedBack n origin }

namespace Lexeme

/-! ### Tokens -/

/-- A token that is moved on and back again stands where it stood. -/
lemma movedBack_movedOn (n : Nat) (t : Token) : (t.movedOn n).movedBack n = t := by
  simp [Token.movedOn, Token.movedBack]

/-- Lexemes placed further on, moved back, are placed at the start. -/
lemma map_movedBack_place (start n : Nat) (ls : List Lexeme) :
    (place (start + n) ls).map (Token.movedBack n) = place start ls := by
  rw [place_add, List.map_map]
  exact List.map_id'' (movedBack_movedOn n) _

/-- The first of placed tokens starts where the placing begins. -/
lemma start_of_head?_place {start : Nat} {ls : List Lexeme} {t : Token}
    (h : (place start ls).head? = some t) : t.start = start := by
  cases ls with
  | nil =>
    cases h
    rfl
  | cons l ls =>
    cases h
    rfl

/-! ### Diagnostics -/

/-- The diagnostics of lexemes begin inside the text that the lexemes make up. -/
lemma start_of_mem_diagnosticsBehind {passed : Text} {ls : List Lexeme}
    (hls : ∀ l ∈ ls, l.text ≠ []) {d : Diagnostic} (h : d ∈ diagnosticsBehind passed ls) :
    passed.length < d.span.start ∧
      d.span.start ≤ passed.length + (ls.flatMap Lexeme.text).length := by
  induction ls generalizing passed with
  | nil => cases h
  | cons l ls ih =>
    have hpos : 0 < l.text.length := List.length_pos_iff.mpr (hls l List.mem_cons_self)
    rw [diagnosticsBehind, List.mem_append] at h
    rw [List.flatMap_cons, List.length_append]
    rcases h with h | h
    · have hstart : d.span.start = passed.length + 1 := by
        rw [span_of_mem_diagnostic? h]
        rfl
      omega
    · have hbounds := ih (fun l' hl' => hls l' (List.mem_cons_of_mem l hl')) h
      rw [List.length_append] at hbounds
      omega

/-- Behind the lexemes that make up a text begin exactly the diagnostics of the later ones. -/
lemma filter_diagnosticsBehind_append {before later : List Lexeme}
    (hbefore : ∀ l ∈ before, l.text ≠ []) (hlater : ∀ l ∈ later, l.text ≠ []) :
    (diagnosticsBehind [] (before ++ later)).filter
        (fun d => (before.flatMap Lexeme.text).length + 1 ≤ d.span.start) =
      diagnosticsBehind (before.flatMap Lexeme.text) later := by
  rw [diagnosticsBehind_append, List.nil_append, List.filter_append]
  -- no token is empty, so each diagnostic starts before the text of its token ends
  have hnone : (diagnosticsBehind [] before).filter
      (fun d => (before.flatMap Lexeme.text).length + 1 ≤ d.span.start) = [] := by
    rw [List.filter_eq_nil_iff]
    intro d hd
    have hbounds := start_of_mem_diagnosticsBehind hbefore hd
    rw [List.length_nil] at hbounds
    rw [decide_eq_true_iff]
    omega
  have hall : (diagnosticsBehind (before.flatMap Lexeme.text) later).filter
      (fun d => (before.flatMap Lexeme.text).length + 1 ≤ d.span.start) =
        diagnosticsBehind (before.flatMap Lexeme.text) later := by
    rw [List.filter_eq_self]
    intro d hd
    have hbounds := start_of_mem_diagnosticsBehind hlater hd
    rw [decide_eq_true_iff]
    omega
  rw [hnone, hall, List.nil_append]

/-- What is placed behind two texts is placed behind the second one, once the first is taken away.
No counter overflows in a text of this length. -/
lemma movedBack_spanBehind {passed between text : Text}
    (h : (passed ++ between).length < UInt32.size - 1) :
    (spanBehind (passed ++ between) text).movedBack passed.length passed.endPosition =
      spanBehind between text := by
  have hline := Text.line_endPosition_append passed between
  have hline_one := Text.one_le_line_endPosition passed
  have hline_one' := Text.one_le_line_endPosition between
  have hcolumn_one := Text.one_le_column_endPosition passed
  have hcolumn_one' := Text.one_le_column_endPosition between
  -- the text is on the line on which the first part ends if no line feed lies between; only then
  -- does its column change
  have hfirst : (passed ++ between).endPosition.line = passed.endPosition.line ↔
      '\n' ∉ between := by
    rw [← Text.line_endPosition_eq_one_iff]
    omega
  simp only [Span.movedBack, spanBehind, Text.toNat_line_endPosition h,
    Text.toNat_column_endPosition h, List.length_append]
  congr 1
  · omega
  · omega
  · congr 1
    omega
  · by_cases hfeed : '\n' ∈ between
    · rw [if_neg fun h' => hfirst.mp h' hfeed, Text.column_endPosition_append_of_mem passed hfeed]
    · have hcolumn := Text.column_endPosition_append_of_notMem passed hfeed
      rw [if_pos (hfirst.mpr hfeed)]
      congr 1
      omega

/-- A lexeme behind more text has the same diagnostic, moved back over that text. -/
lemma map_movedBack_diagnostic? {l : Lexeme} {passed between : Text}
    (h : (passed ++ between).length < UInt32.size - 1) :
    (l.diagnostic? (passed ++ between)).map
        (Diagnostic.movedBack passed.length passed.endPosition) = l.diagnostic? between := by
  obtain ⟨text, v⟩ := l
  cases v with
  | token kind => rfl
  | word => rfl
  | error type =>
    simp only [diagnostic?, Option.map_some, Diagnostic.movedBack, Diagnostic.ofLexError,
      movedBack_spanBehind h]

/-- The diagnostics behind two texts are those behind the second one, moved back. -/
lemma map_movedBack_diagnosticsBehind {passed between : Text} {ls : List Lexeme}
    (h : (passed ++ (between ++ ls.flatMap Lexeme.text)).length < UInt32.size - 1) :
    (diagnosticsBehind (passed ++ between) ls).map
        (Diagnostic.movedBack passed.length passed.endPosition) = diagnosticsBehind between ls := by
  induction ls generalizing between with
  | nil => rfl
  | cons l ls ih =>
    simp only [List.flatMap_cons, List.length_append] at h
    have hhere : (passed ++ between).length < UInt32.size - 1 := by
      rw [List.length_append]
      omega
    have hlater : (passed ++ ((between ++ l.text) ++ ls.flatMap Lexeme.text)).length <
        UInt32.size - 1 := by
      simp only [List.length_append]
      omega
    rw [diagnosticsBehind, diagnosticsBehind, List.map_append, ← Option.toList_map,
      map_movedBack_diagnostic? hhere, List.append_assoc, ih hlater]

end Lexeme

/-! ### Reading the rest of a text -/

/-- The lexemes of a text from some lexeme on are the lexemes of the rest of the text. -/
lemma lexemes_flatMap_drop (strict : Bool) (t : Text) (i : Nat) :
    lexemes strict (((lexemes strict t).drop i).flatMap Lexeme.text) =
      (lexemes strict t).drop i := by
  induction i generalizing t with
  | zero => rw [List.drop_zero, flatMap_text_lexemes]
  | succ i ih =>
    by_cases ht : t = []
    · simp [ht]
    · rw [lexemes_of_ne_nil strict ht, List.drop_succ_cons]
      exact ih _

/-- A token splits the lexemes of a text in two, and it starts where the later ones begin. -/
lemma exists_split_at_token {strict : Bool} {source : Text} {i : Nat} {t : Token}
    (ht : (place 1 (lexemes strict source))[i]? = some t) :
    ∃ before passed rest, source = passed ++ rest ∧ before.flatMap Lexeme.text = passed ∧
      lexemes strict source = before ++ lexemes strict rest ∧ t.start = passed.length + 1 ∧
        (place 1 (lexemes strict source)).drop i =
          place (1 + passed.length) (lexemes strict rest) := by
  -- the lexemes before the token make up the text before it, and the others those of the rest
  set ls := lexemes strict source with hls
  have hi : i ≤ ls.length := by
    obtain ⟨hlt, -⟩ := List.getElem?_eq_some_iff.mp ht
    rw [length_place] at hlt
    exact Nat.le_of_lt_succ hlt
  have hrest : lexemes strict ((ls.drop i).flatMap Lexeme.text) = ls.drop i :=
    lexemes_flatMap_drop strict source i
  refine ⟨ls.take i, (ls.take i).flatMap Lexeme.text, (ls.drop i).flatMap Lexeme.text, ?_, rfl, ?_,
    ?_, ?_⟩
  · rw [← List.flatMap_append, List.take_append_drop, hls, flatMap_text_lexemes]
  · rw [hrest, List.take_append_drop]
  · rw [← List.head?_drop, drop_place 1 hi] at ht
    rw [start_of_head?_place ht, Nat.add_comm]
  · rw [hrest, drop_place 1 hi]

/-- Reading that begins anew at a token of a text gives the tokens from there on, moved back to the
beginning, and the diagnostics that begin there or later, with lines and columns counted from the
place of that token. -/
theorem restart_at_token (options : Options) (source : Text)
    (hlen : source.length < UInt32.size - 1) (i : Nat) (t : Token)
    (ht : (tokenizeWith options source)[i]? = some t) :
    tokenizeWith options (source.drop (t.start - 1)) =
        ((tokenizeWith options source).drop i).map (Token.movedBack (t.start - 1)) ∧
      (Lexed.ofText options .empty (source.drop (t.start - 1))).collector.diagnostics =
        ((Lexed.ofText options .empty source).collector.diagnostics.filter
          fun d => t.start ≤ d.span.start).map
            (Diagnostic.movedBack (t.start - 1) ((Lines.ofText source).position t.start)) := by
  simp only [tokenizeWith, tokens_ofText] at ht ⊢
  obtain ⟨before, passed, rest, rfl, hpassed, hlexemes, hstart, hdrop⟩ := exists_split_at_token ht
  have hne : ∀ l ∈ before ++ lexemes options.strictEscapes rest, l.text ≠ [] := by
    rw [← hlexemes]
    exact forall_mem_lexemes (fun u hu => text_first_ne_nil _ hu) _
  rw [hstart, Nat.add_sub_cancel, List.drop_left, Lines.position_append]
  constructor
  · rw [hdrop, map_movedBack_place]
  · rw [diagnostics_ofText, diagnostics_ofText, Collector.diagnostics_empty, List.nil_append,
      List.nil_append]
    by_cases hreport : options.report = true
    · rw [if_pos hreport, if_pos hreport, hlexemes, ← hpassed, filter_diagnosticsBehind_append
        (fun l hl => hne l (List.mem_append_left _ hl))
        (fun l hl => hne l (List.mem_append_right _ hl)), hpassed]
      have hlen' : (passed ++ ([] ++ (lexemes options.strictEscapes rest).flatMap
          Lexeme.text)).length < UInt32.size - 1 := by
        rwa [List.nil_append, flatMap_text_lexemes]
      rw [← map_movedBack_diagnosticsBehind hlen', List.append_nil]
    · rw [if_neg hreport, if_neg hreport]
      rfl

/-- Reading begins anew behind `b` on the second line: what is malformed on that line comes to stand
on the first one, one column further left, and what is malformed on the next line keeps its
column. -/
theorem restart_at_token_inside_line :
    "a\nb ~\n 1x".toList.length < UInt32.size - 1 ∧
      (tokenizeWith {} "a\nb ~\n 1x".toList)[3]? = some ⟨.whitespace, [' '], 4, .empty⟩ ∧
      tokenizeWith {} " ~\n 1x".toList =
        ((tokenizeWith {} "a\nb ~\n 1x".toList).drop 3).map (Token.movedBack 3) ∧
      (Lexed.ofText {} .empty " ~\n 1x".toList).collector.diagnostics.map Diagnostic.span =
        [⟨2, 3, 1, 2, 0⟩, ⟨5, 7, 2, 2, 0⟩] := by
  have hlen : "a\nb ~\n 1x".toList.length < UInt32.size - 1 := by decide
  have ht : (tokenizeWith {} "a\nb ~\n 1x".toList)[3]? = some ⟨.whitespace, [' '], 4, .empty⟩ := by
    decide +kernel
  obtain ⟨htokens, hdiagnostics⟩ := restart_at_token {} _ hlen 3 _ ht
  refine ⟨hlen, ht, htokens, ?_⟩
  have hspans := congrArg (List.map Diagnostic.span) hdiagnostics
  refine hspans.trans ?_
  decide +kernel

end EdnTokens
