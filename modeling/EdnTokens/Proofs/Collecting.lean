import Mathlib.Data.List.DropRight
import EdnTokens.Proofs.Pulling

/-!
# Histories of collectors

A collector is filled from two sides. Diagnostics are emitted into it directly, and texts that are
read report their malformed tokens to it. Now and then it is emptied. Whatever the order of all
this, no diagnostic is lost and none comes twice: what was taken, and then what is still held, is
what the steps emitted (`Collector.books_after_steps`).

What a step emits is said without any collector (`Collector.Step.emitted`). For a text it is read
off the stream of its tokens, and for a diagnostic that is put together it is the record that its
parts describe. One step keeps the balance (`Collector.taken_append_diagnostics_step`): it answers
with what leaves the collector and adds what it emits at the end. The balance of a history is the
sum over its steps, and because taking leaves nothing behind, what is held was emitted since.
-/

namespace EdnTokens

open Lexeme

/-! ### What parts describe -/

namespace Diagnostic

namespace Part

/-- The code that is given. -/
def code? : Part → Option DiagnosticCode
  | .code c => some c
  | _ => none

/-- The span that is given. -/
def span? : Part → Option Span
  | .span s => some s
  | _ => none

/-- The note that is given. -/
def note? : Part → Option Text
  | .note t => some t
  | _ => none

/-- The help that is given. -/
def help? : Part → Option Text
  | .help t => some t
  | _ => none

end Part

/-- The diagnostic that a message and some parts describe: it has the last one of their codes and of
their spans, and all their notes and helps in order. -/
def describedBy (message : String) (parts : List Part) : Diagnostic where
  message
  span := (parts.filterMap Part.span?).getLast?.getD .dummy
  code := (parts.filterMap Part.code?).getLast?
  notes := parts.filterMap Part.note?
  helps := parts.filterMap Part.help?

/-- Putting a diagnostic together gives what its parts describe. -/
lemma ofParts_eq_describedBy (message : String) (parts : List Part) :
    ofParts message parts = describedBy message parts := by
  induction parts using List.reverseRecOn with
  | nil => rfl
  | append_singleton parts part ih =>
    have hlast : ofParts message (parts ++ [part]) = (ofParts message parts).add part := by
      rw [ofParts, List.foldl_append, List.foldl_cons, List.foldl_nil, ofParts]
    rw [hlast, ih]
    cases part <;> simp [add, describedBy, Part.code?, Part.span?, Part.note?, Part.help?]

end Diagnostic

/-! ### What a text reports -/

/-- The diagnostics of all lexemes of a text are those of its malformed tokens. The end token, which
stands for no lexeme, is not malformed. -/
lemma Lexeme.diagnosticsBehind_lexemes (strict : Bool) (source : Text) :
    diagnosticsBehind [] (lexemes strict source) =
      ((place 1 (lexemes strict source)).filter Token.isError).map (.ofToken source) := by
  obtain ⟨body, hplace, -, -⟩ := exists_place_lexemes_eq_concat strict source
  have hend : [Token.eof (source.length + 1)].filter Token.isError = [] := by
    simp [Token.eof, Token.isError]
  have hmalformed : (place 1 (lexemes strict source)).dropLast.filter Token.isError =
      (place 1 (lexemes strict source)).filter Token.isError := by
    rw [hplace, List.dropLast_concat, List.filter_append, hend, List.append_nil]
  have hsource : source = [] ++ ((lexemes strict source).flatMap Lexeme.text ++ []) := by
    rw [flatMap_text_lexemes, List.append_nil, List.nil_append]
  rw [diagnosticsBehind_eq_map (fun _ hl => admits_of_mem_lexemes hl) hsource, List.length_nil,
    Nat.zero_add, hmalformed]

namespace Collector

/-! ### Steps -/

/-- A step that is taken with a collector. -/
inductive Step
  /-- Puts a diagnostic together and emits it. -/
  | emit (message : String) (parts : List Diagnostic.Part)
  /-- Emits a diagnostic as it is. -/
  | emitDiagnostic (d : Diagnostic)
  /-- Reads a text, which reports to the collector if the options ask for that. -/
  | read (options : Options) (source : Text)
  /-- Asks for the diagnostics held. -/
  | diagnostics
  /-- Takes the diagnostics held. -/
  | take
  deriving DecidableEq, Repr

/-- What a step answers. -/
inductive Reply
  | silent
  | tokens (ts : List Token)
  /-- The diagnostics held, which the collector keeps. -/
  | copied (ds : List Diagnostic)
  /-- The diagnostics that leave the collector. -/
  | handedOver (ds : List Diagnostic)
  deriving DecidableEq

/-- The diagnostics that leave the collector with a reply. -/
def Reply.taken : Reply → List Diagnostic
  | .silent => []
  | .tokens _ => []
  | .copied _ => []
  | .handedOver ds => ds

/-- Takes one step. -/
def step (c : Collector) : Step → Reply × Collector
  | .emit message parts => (.silent, c.emit (.ofParts message parts))
  | .emitDiagnostic d => (.silent, c.emit d)
  | .read options source =>
    let lexed := Lexed.ofText options c source
    (.tokens lexed.tokens, lexed.collector)
  | .diagnostics => (.copied c.diagnostics, c)
  | .take =>
    let (ds, c) := c.take
    (.handedOver ds, c)

/-- Takes step after step. -/
def steps (c : Collector) : List Step → List Reply × Collector
  | [] => ([], c)
  | s :: ss =>
    let (reply, c) := c.step s
    let (replies, c) := c.steps ss
    (reply :: replies, c)

/-- The diagnostics that a step emits. A text that is read with a report emits one for each
malformed token of its stream. -/
def Step.emitted : Step → List Diagnostic
  | .emit message parts => [.describedBy message parts]
  | .emitDiagnostic d => [d]
  | .read options source =>
    if options.report then
      ((tokenizeWith options source).filter Token.isError).map (.ofToken source)
    else []
  | .diagnostics => []
  | .take => []

/-- Later steps go on from the collector that the earlier ones leave. -/
lemma steps_append (c : Collector) (ss later : List Step) :
    c.steps (ss ++ later) =
      ((c.steps ss).1 ++ ((c.steps ss).2.steps later).1, ((c.steps ss).2.steps later).2) := by
  induction ss generalizing c with
  | nil => rfl
  | cons s ss ih => simp only [List.cons_append, steps, ih]

/-! ### The balance of one step -/

/-- Reading a text adds what it emits to what was held. -/
lemma diagnostics_read (c : Collector) (options : Options) (source : Text) :
    (Lexed.ofText options c source).collector.diagnostics =
      c.diagnostics ++ (Step.read options source).emitted := by
  rw [diagnostics_ofText, diagnosticsBehind_lexemes, Step.emitted, tokenizeWith, tokens_ofText]

/-- What leaves the collector with a step and what it holds afterwards is what it held before and
what the step emits. -/
lemma taken_append_diagnostics_step (c : Collector) (s : Step) :
    (c.step s).1.taken ++ (c.step s).2.diagnostics = c.diagnostics ++ s.emitted := by
  cases s with
  | emit message parts =>
    rw [step, Reply.taken, List.nil_append, diagnostics_emit, Diagnostic.ofParts_eq_describedBy,
      Step.emitted]
  | emitDiagnostic d => rw [step, Reply.taken, List.nil_append, diagnostics_emit, Step.emitted]
  | read options source =>
    rw [step, Reply.taken, List.nil_append, diagnostics_read]
  | diagnostics => rw [step, Reply.taken, List.nil_append, Step.emitted, List.append_nil]
  | take => rw [step, take, Reply.taken, diagnostics_empty, Step.emitted]

/-- Only taking lets anything leave the collector. -/
lemma taken_step_of_ne_take (c : Collector) {s : Step} (hs : s ≠ .take) :
    (c.step s).1.taken = [] := by
  cases s with
  | take => exact absurd rfl hs
  | _ => rfl

/-! ### The balance of a history -/

/-- What was taken in the course of some steps, and what is held after them, is what was held before
and what the steps emitted. -/
lemma taken_append_diagnostics_steps (c : Collector) (ss : List Step) :
    (c.steps ss).1.flatMap Reply.taken ++ (c.steps ss).2.diagnostics =
      c.diagnostics ++ ss.flatMap Step.emitted := by
  induction ss generalizing c with
  | nil => rw [steps, List.flatMap_nil, List.flatMap_nil, List.nil_append, List.append_nil]
  | cons s ss ih =>
    rw [steps, List.flatMap_cons, List.append_assoc, ih, ← List.append_assoc,
      taken_append_diagnostics_step, List.append_assoc, List.flatMap_cons]

/-- After steps from the empty collector it holds what was emitted since the last take. -/
lemma diagnostics_steps_empty (ss : List Step) :
    (empty.steps ss).2.diagnostics = (ss.rtakeWhile (· != .take)).flatMap Step.emitted := by
  induction ss using List.reverseRecOn with
  | nil => rfl
  | append_singleton ss s ih =>
    have hlast : (empty.steps (ss ++ [s])).2 = ((empty.steps ss).2.step s).2 := by
      simp only [steps_append, steps]
    rw [hlast]
    by_cases htake : s = .take
    · -- Nothing is held behind a take, so what came before it no longer counts.
      subst htake
      rw [List.rtakeWhile_concat_neg _ _ _ (by simp), List.flatMap_nil, step, take,
        diagnostics_empty]
    · have hstep := taken_append_diagnostics_step (empty.steps ss).2 s
      rw [taken_step_of_ne_take _ htake, List.nil_append, ih] at hstep
      rw [hstep, List.rtakeWhile_concat_pos _ _ _ (by simpa using htake), List.flatMap_append,
        List.flatMap_singleton]

/-- The books of a collector after some steps: how its replies and what it holds go with what the
steps emitted. -/
structure Books (history : List Step) (replies : List Reply) (c : Collector) : Prop where
  balance : replies.flatMap Reply.taken ++ c.diagnostics = history.flatMap Step.emitted
  held : c.diagnostics = (history.rtakeWhile (· != .take)).flatMap Step.emitted
  count : c.count = c.diagnostics.length
  hasErrors_iff : c.hasErrors = true ↔ 0 < c.count

/-- No history of steps loses a diagnostic or doubles one. Everything that was taken in its course,
and then what the collector holds, is what the steps emitted, in their order: those that were
emitted directly, and for each text that was read with a report those of its malformed tokens. What
is held was emitted since the last take, its number is the count, and there are errors if the count
is positive. To ask for the diagnostics held shows these, and changes neither the collector nor what
any other step answers. -/
theorem books_after_steps (history : List Step) :
    Books history (empty.steps history).1 (empty.steps history).2 ∧
      ∀ later, ∃ replies c,
        empty.steps (history ++ later) = ((empty.steps history).1 ++ replies, c) ∧
        empty.steps (history ++ .diagnostics :: later) =
          ((empty.steps history).1 ++ .copied (empty.steps history).2.diagnostics :: replies,
            c) := by
  constructor
  · have hbalance := taken_append_diagnostics_steps empty history
    rw [diagnostics_empty, List.nil_append] at hbalance
    exact {
      balance := hbalance
      held := diagnostics_steps_empty history
      count := (length_diagnostics _).symm
      hasErrors_iff := hasErrors_iff _ }
  · intro later
    refine ⟨_, _, steps_append empty history later, ?_⟩
    rw [steps_append, steps, step]

/-- What a text reports is taken before the rest is emitted. A text that is read without a report
comes in between, and asking twice shows the same. -/
example :
    let d : Diagnostic := { message := "m", notes := ["n".toList] }
    empty.steps [.read {} "~".toList, .take, .read { report := false } "~".toList,
        .emit "m" [.note "n".toList], .diagnostics, .diagnostics] =
      ([.tokens (tokenize "~".toList),
        .handedOver [.ofToken "~".toList (.error ['~'] 1 (some .unrecognizedCharacter))],
        .tokens (tokenize "~".toList), .silent, .copied [d], .copied [d]], ⟨#[d]⟩) := by
  decide +kernel

end Collector

end EdnTokens
