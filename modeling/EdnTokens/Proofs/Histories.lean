import Mathlib.Data.List.Induction
import Mathlib.Tactic.Common
import EdnTokens.Source.Map

/-!
# Histories of source maps

A source map is made by adding files to the empty one, under names that may come again. Its history
is the list of these additions, and everything that the map answers can be read off the history
(`SourceMap.after_records_additions`): the number of an addition is its index, a file stays at its
number with the name and content that it was added with, and a name stands for the last addition
that gave it.

A map keeps the files and the table of names apart, and one addition changes both. That they fit
together is an invariant, `SourceMap.Records`, which ties each of them to the history on its own.
-/

namespace EdnTokens

/-- A place is written as the name of the file, the line and the column. -/
lemma SourceFile.location_of_position_eq {file : SourceFile} {offset line column : Nat}
    (h : file.position offset = ⟨line, column⟩) :
    file.location offset = file.name.toList ++ ":".toList ++ Text.ofNat line ++ ":".toList ++
      Text.ofNat column := by
  rw [location, h, List.append_assoc _ ":".toList, List.append_assoc _ ":".toList]
  rfl

namespace SourceMap

/-! ### The last addition of a name -/

/-- The addition with index `id` has the given name, and no later one has it. -/
def LastNamed (additions : List (String × Text)) (name : String) (id : Nat) : Prop :=
  (additions.map Prod.fst)[id]? = some name ∧
    ∀ later, id < later → (additions.map Prod.fst)[later]? ≠ some name

variable {additions : List (String × Text)} {name x : String} {content : Text} {id : Nat}

/-- A file with another name makes no difference to where a name stands. -/
lemma getElem?_names_concat_iff (h : name ≠ x) :
    ((additions ++ [(name, content)]).map Prod.fst)[id]? = some x ↔
      (additions.map Prod.fst)[id]? = some x := by
  rw [List.map_append, List.map_singleton]
  rcases Nat.lt_or_ge id (additions.map Prod.fst).length with hid | hid
  · rw [List.getElem?_append_left hid]
  · rw [List.getElem?_append_right hid, List.getElem?_singleton, List.getElem?_eq_none hid]
    refine iff_of_false ?_ (by simp)
    intro hlast
    exact h (Option.some.inj (Option.ite_none_right_eq_some.mp hlast).2)

/-- One more addition is the last one of its own name, and changes nothing for other names. -/
lemma lastNamed_concat_iff :
    LastNamed (additions ++ [(name, content)]) x id ↔
      if name = x then id = additions.length else LastNamed additions x id := by
  by_cases h : name = x
  · subst h
    have hlast : ((additions ++ [(name, content)]).map Prod.fst)[additions.length]? =
        some name := by
      simp
    have hlength : ((additions ++ [(name, content)]).map Prod.fst).length =
        additions.length + 1 := by
      simp
    rw [if_pos rfl]
    constructor
    · -- an earlier number would have the new addition as a later one of its name
      rintro ⟨hid, hlater⟩
      obtain ⟨hlt, -⟩ := List.getElem?_eq_some_iff.mp hid
      rcases Nat.lt_or_ge id additions.length with hbefore | hbehind
      · exact absurd hlast (hlater _ hbefore)
      · omega
    · rintro rfl
      refine ⟨hlast, fun later hlater => ?_⟩
      rw [List.getElem?_eq_none (by omega)]
      simp
  · rw [if_neg h]
    simp only [LastNamed, Ne, getElem?_names_concat_iff h]

/-- Every name that was given has a last addition. -/
lemma exists_lastNamed_iff :
    (∃ id, LastNamed additions x id) ↔ x ∈ additions.map Prod.fst := by
  induction additions using List.reverseRecOn with
  | nil => simp [LastNamed]
  | append_singleton additions addition ih =>
    obtain ⟨name, content⟩ := addition
    simp only [lastNamed_concat_iff]
    by_cases h : name = x
    · simp [h]
    · simp [h, ih, Ne.symm h]

/-! ### Maps and their histories -/

/-- The map after some additions to the empty one. -/
def after (additions : List (String × Text)) : SourceMap :=
  additions.foldl (fun m addition => (m.add addition.1 addition.2).2) empty

/-- The last addition is made to the map of the additions before it. -/
lemma after_concat (additions : List (String × Text)) (name : String) (content : Text) :
    after (additions ++ [(name, content)]) = ((after additions).add name content).2 := by
  rw [after, List.foldl_append, List.foldl_cons, List.foldl_nil, after]

/-- The map records some additions: its files are those that were added, in this order, and each
name stands for its last addition. -/
structure Records (additions : List (String × Text)) (m : SourceMap) : Prop where
  files : m.files.toList =
    additions.map fun addition => { name := addition.1, content := addition.2 }
  names : ∀ name id, m.lookup? name = some id ↔ LastNamed additions name id

variable {m : SourceMap}

namespace Records

/-- A map has as many files as there were additions. -/
lemma size (h : m.Records additions) : m.size = additions.length := by
  rw [SourceMap.size, ← Array.length_toList, h.files, List.length_map]

/-- An addition is recorded in the files and in the table of names. -/
lemma add (h : m.Records additions) (name : String) (content : Text) :
    (m.add name content).2.Records (additions ++ [(name, content)]) where
  files := by
    rw [SourceMap.add, Array.toList_push, h.files, List.map_append, List.map_singleton]
  names x id := by
    rw [lookup?_add, lastNamed_concat_iff, h.size]
    by_cases hname : name = x
    · rw [if_pos hname, if_pos hname, Option.some.injEq, eq_comm]
    · rw [if_neg hname, if_neg hname, h.names]

/-- The file with a number is the addition with that index. -/
lemma get?_eq (h : m.Records additions) (id : Nat) :
    m.get? id =
      additions[id]?.map fun addition => { name := addition.1, content := addition.2 } := by
  rw [get?, ← Array.getElem?_toList, h.files, List.getElem?_map]

/-- A number is unknown exactly if there was no addition with that index. -/
lemma get?_eq_none_iff (h : m.Records additions) (id : Nat) :
    m.get? id = none ↔ additions.length ≤ id := by
  rw [h.get?_eq, Option.map_eq_none_iff, List.getElem?_eq_none_iff]

/-- A name stands for nothing exactly if it was never given. -/
lemma lookup?_eq_none_iff (h : m.Records additions) (name : String) :
    m.lookup? name = none ↔ name ∉ additions.map Prod.fst := by
  rw [← exists_lastNamed_iff, not_exists, Option.eq_none_iff_forall_ne_some]
  exact forall_congr' fun id => not_congr (h.names name id)

end Records

/-- A map records the additions that it is made by. -/
lemma records_after (additions : List (String × Text)) : (after additions).Records additions := by
  induction additions using List.reverseRecOn with
  | nil =>
    refine { files := rfl, names := fun name id => ?_ }
    exact iff_of_false (by simp [after, empty, lookup?]) (by simp [LastNamed])
  | append_singleton additions addition ih =>
    rw [after_concat]
    exact ih.add addition.1 addition.2

/-- A number is complained about exactly if no file has it. -/
lemma get_eq_error_iff (m : SourceMap) (id : Nat) :
    m.get id = .error ⟨id⟩ ↔ m.get? id = none := by
  rw [get]
  cases m.get? id with
  | none => simp
  | some file => simp

/-- A source map answers from the history of its additions. Each addition gets its index as its
number, and however many follow, the file with that number has the name and content of that
addition; no other numbers are known. A name stands for the last addition that gave it, and for
nothing if there was none. The place of a span is the name of its file with the line and column that
the beginning of the span has in the content of that file, and nothing else about the span counts;
there is no such place exactly if the number of the file is unknown. -/
theorem after_records_additions :
    (∀ before name content later,
      ((after before).add name content).1 = before.length ∧
      ∃ file : SourceFile, file.name = name ∧ file.content = content ∧
        (after (before ++ (name, content) :: later)).get? before.length = some file ∧
        (after (before ++ (name, content) :: later)).get before.length = .ok file) ∧
    ∀ additions,
      (∀ id, ((after additions).get? id = none ↔ additions.length ≤ id) ∧
        ((after additions).get id = .error ⟨id⟩ ↔ additions.length ≤ id)) ∧
      (∀ name id, (after additions).lookup? name = some id ↔ LastNamed additions name id) ∧
      (∀ name, (after additions).lookup? name = none ↔ name ∉ additions.map Prod.fst) ∧
      ∀ span : Span,
        ((after additions).location? span = none ↔ additions.length ≤ span.file) ∧
        ∀ place, (after additions).location? span = some place ↔
          ∃ name content line column, additions[span.file]? = some (name, content) ∧
            (Lines.ofText content).position span.start = ⟨line, column⟩ ∧
            place = name.toList ++ ":".toList ++ Text.ofNat line ++ ":".toList ++
              Text.ofNat column := by
  constructor
  · intro before name content later
    -- the number is that of the addition, and later additions do not change it
    have hfile := (records_after (before ++ (name, content) :: later)).get?_eq before.length
    rw [List.getElem?_append_right (Nat.le_refl _), Nat.sub_self, List.getElem?_cons_zero,
      Option.map_some] at hfile
    refine ⟨(records_after before).size, _, rfl, rfl, hfile, ?_⟩
    rw [get, hfile]
  · intro additions
    have hrecords := records_after additions
    refine ⟨fun id => ⟨hrecords.get?_eq_none_iff id, ?_⟩, hrecords.names,
      hrecords.lookup?_eq_none_iff, fun span => ⟨?_, fun place => ?_⟩⟩
    · rw [get_eq_error_iff, hrecords.get?_eq_none_iff]
    · rw [location?, Option.map_eq_none_iff, hrecords.get?_eq_none_iff]
    · rw [location?, hrecords.get?_eq, Option.map_map]
      cases additions[span.file]? with
      | none => simp
      | some addition =>
        obtain ⟨name, content⟩ := addition
        rw [Option.map_some, Option.some.injEq]
        constructor
        · rintro rfl
          exact ⟨name, content, _, _, rfl, rfl, SourceFile.location_of_position_eq rfl⟩
        · rintro ⟨_, _, line, column, heq, hposition, rfl⟩
          obtain ⟨rfl, rfl⟩ := Prod.mk.inj (Option.some.inj heq)
          exact SourceFile.location_of_position_eq hposition

/-- A name that comes again stands for the newer file, and the older one keeps its number. -/
example :
    let m := after [("a.edn", "λ\n1".toList), ("b.edn", []), ("a.edn", "2".toList)]
    m.lookup? "a.edn" = some 2 ∧ m.location? { start := 3 } = some "a.edn:2:1".toList := by
  decide +kernel

end SourceMap

end EdnTokens
