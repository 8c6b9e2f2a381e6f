import Mathlib.Data.List.Induction
import Mathlib.Data.List.Nodup
import Mathlib.Tactic.Common
import EdnTokens.Command.Inputs

/-!
# Input files

The files that a command works on are read one after the other. A name that was read before is
passed over, so reading a list of paths amounts to reading it without its repetitions
(`SourceMap.ofInputs_eq_ok`): every path is entered once, at the place where it first occurs. The
first path that cannot be read ends the reading with its failure
(`SourceMap.exists_ofInputs_eq_error`).

What can be read is said without the reader: a path holds a text (`FileTree.Holds`) if a file lies
there whose content is that text, and a path that holds none is unreadable for one of three reasons
(`FileTree.Unreadable`).
-/

namespace EdnTokens

/-! ### Lists without repetitions -/

/-- One more element changes nothing if it occurred before, and is added at the end otherwise. -/
lemma eraseDups_concat {α : Type} [DecidableEq α] (l : List α) (a : α) :
    (l ++ [a]).eraseDups = if a ∈ l then l.eraseDups else l.eraseDups ++ [a] := by
  rw [List.eraseDups_append]
  by_cases h : a ∈ l
  · simp [List.removeAll, h]
  · simp [List.removeAll, h, List.eraseDups_cons]

/-- If not all members of a list have a property, one is the first without it. Its first occurrence
stays where it is when repetitions are dropped. -/
lemma exists_first_not {α : Type} [DecidableEq α] {p : α → Prop} {l : List α}
    (h : ¬ ∀ a ∈ l, p a) :
    ∃ (done : List α) (a : α) (rest rest' : List α), l = done ++ a :: rest ∧ (∀ b ∈ done, p b) ∧
      ¬ p a ∧ l.eraseDups = done.eraseDups ++ a :: rest' := by
  classical
  push Not at h
  obtain ⟨x, hx, hpx⟩ := h
  obtain ⟨a, ha⟩ : ∃ a, l.find? (fun a => ¬ p a) = some a :=
    Option.isSome_iff_exists.mp (List.find?_isSome.mpr ⟨x, hx, by simpa using hpx⟩)
  obtain ⟨hpa, done, rest, rfl, hdone⟩ := List.find?_eq_some_iff_append.mp ha
  have hpa : ¬ p a := by simpa using hpa
  have hdone : ∀ b ∈ done, p b := by simpa using hdone
  have hnew : a ∉ done := fun hmem => hpa (hdone a hmem)
  have hdups : ∃ rest', (done ++ a :: rest).eraseDups = done.eraseDups ++ a :: rest' := by
    rw [List.eraseDups_append, List.cons_removeAll, if_pos (by simpa using hnew),
      List.eraseDups_cons]
    exact ⟨_, rfl⟩
  obtain ⟨rest', hdups⟩ := hdups
  exact ⟨done, a, rest, rest', rfl, hdone, hpa, hdups⟩

/-- Without its repetitions a list has none. -/
lemma nodup_eraseDups {α : Type} [DecidableEq α] (l : List α) : l.eraseDups.Nodup := by
  induction l using List.reverseRecOn with
  | nil => simp
  | append_singleton l a ih =>
    rw [eraseDups_concat]
    split_ifs with h
    · exact ih
    · rw [← List.mem_eraseDups] at h
      exact List.nodup_append.mpr ⟨ih, List.nodup_singleton a, by
        intro x hx y hy
        rw [List.mem_singleton.mp hy]
        exact ne_of_mem_of_not_mem hx h⟩

/-! ### Reading one file -/

namespace FileTree

variable {tree : FileTree} {path : String}

/-- A file lies at a path, and its content is the encoded form of a text. -/
def Holds (tree : FileTree) (path : String) (content : Text) : Prop :=
  ∃ bytes, tree.entry? path = some (.file bytes) ∧ Text.ofBytes? bytes = some content

/-- Why no text can be read at a path: nothing lies there, or a directory, or a file whose content
is not well-formed. -/
inductive Unreadable (tree : FileTree) (path : String) : Failure → Prop
  | missing (h : tree.entry? path = none) : Unreadable tree path (.inputMissing path)
  | notFile (h : tree.entry? path = some .directory) : Unreadable tree path (.inputNotFile path)
  | notText {bytes : ByteArray} (h : tree.entry? path = some (.file bytes))
    (htext : Text.ofBytes? bytes = none) : Unreadable tree path (.inputNotText path)

/-- A path can be read if and only if it holds a text, and this text is what is read. -/
lemma readInput_eq_ok_iff {content : Text} :
    tree.readInput path = .ok content ↔ tree.Holds path content := by
  unfold readInput Holds
  split
  case h_1 h => simp [h]
  case h_2 h => simp [h]
  case h_3 bytes h =>
    split
    case h_1 ht => simp [h, ht]
    case h_2 ht => simp [h, ht]

/-- Reading a path fails if and only if it is unreadable, and for that reason. -/
lemma readInput_eq_error_iff {f : Failure} :
    tree.readInput path = .error f ↔ tree.Unreadable path f := by
  constructor
  · intro hread
    unfold readInput at hread
    split at hread
    case h_1 h =>
      cases hread
      exact .missing h
    case h_2 h =>
      cases hread
      exact .notFile h
    case h_3 bytes h =>
      split at hread
      case h_1 ht =>
        cases hread
        exact .notText h ht
      case h_2 ht => cases hread
  · intro h
    cases h with
    | missing h => simp [readInput, h]
    | notFile h => simp [readInput, h]
    | notText h ht => simp [readInput, h, ht]

/-- A file that is not text fails as a file, everything else as an argument. -/
lemma Unreadable.category_eq {f : Failure} (h : tree.Unreadable path f) :
    f.category = if (tree.content? path).isSome then .fileOperation else .validation := by
  cases h with
  | missing h => simp [content?, h, Failure.category]
  | notFile h => simp [content?, h, Failure.category]
  | notText h => simp [content?, h, Failure.category]

/-- A path that holds no text is unreadable for some reason. -/
lemma exists_unreadable (h : ∀ content, ¬ tree.Holds path content) :
    ∃ f, tree.Unreadable path f := by
  cases hread : tree.readInput path with
  | error f => exact ⟨f, readInput_eq_error_iff.mp hread⟩
  | ok content => exact absurd (readInput_eq_ok_iff.mp hread) (h content)

end FileTree

/-! ### Source maps of input files -/

namespace SourceMap

variable {tree : FileTree} {content : String → Text}

/-- The map of some different files, given by their names, with the contents that lie there. -/
def ofContents (content : String → Text) (names : List String) : SourceMap where
  files := (names.map fun name => { name, content := content name }).toArray
  byName := names.zipIdx.reverse

/-- A name is found exactly if it is given. -/
lemma isSome_lookup?_ofContents_iff (content : String → Text) (names : List String)
    (name : String) :
    ((ofContents content names).lookup? name).isSome = true ↔ name ∈ names := by
  simp only [lookup?, ofContents, List.lookup_isSome_iff, List.mem_reverse, beq_iff_eq]
  constructor
  · rintro ⟨⟨_, i⟩, hmem, rfl⟩
    exact List.fst_mem_of_mem_zipIdx hmem
  · intro hmem
    obtain ⟨i, hi, rfl⟩ := List.mem_iff_getElem.mp hmem
    exact ⟨(names[i], i), List.mk_mem_zipIdx_iff_getElem?.mpr (by simp), rfl⟩

/-- A file with a new name is added behind the others. -/
lemma ofContents_concat {names : List String} {name : String} (h : name ∉ names) :
    ofContents content (names ++ [name]) =
      ((ofContents content names).add name (content name)).2 := by
  have htable : names.zipIdx.reverse.filter (fun entry => entry.1 != name) =
      names.zipIdx.reverse := by
    rw [List.filter_eq_self]
    intro entry hentry
    rw [bne_iff_ne]
    rintro rfl
    exact h (List.fst_mem_of_mem_zipIdx (List.mem_reverse.mp hentry))
  simp [ofContents, add, point, size, htable, List.zipIdx_append]

/-- Each of some different names stands for the file at its place. -/
lemma lookup?_ofContents {names : List String} (hnodup : names.Nodup) {i : Nat} {name : String}
    (h : names[i]? = some name) : (ofContents content names).lookup? name = some i := by
  induction names using List.reverseRecOn with
  | nil => simp at h
  | append_singleton names last ih =>
    obtain ⟨hnames, -, hlast⟩ := List.nodup_append.mp hnodup
    have hnew : last ∉ names := fun hmem => hlast last hmem last (List.mem_singleton_self last) rfl
    rw [ofContents_concat hnew, lookup?_add]
    rcases Nat.lt_or_ge i names.length with hi | hi
    · rw [List.getElem?_append_left hi] at h
      have hne : last ≠ name :=
        (hlast name (List.mem_of_getElem? h) last (List.mem_singleton_self last)).symm
      rw [if_neg hne]
      exact ih hnames h
    · rw [List.getElem?_append_right hi, List.getElem?_singleton] at h
      obtain ⟨hplace, hname⟩ := Option.ite_none_right_eq_some.mp h
      have hsize : (ofContents content names).size = names.length := by simp [ofContents, size]
      rw [if_pos (Option.some.inj hname), hsize]
      exact congrArg some (by omega)

/-- Adding an input that can be read: a name that is there already is passed over. -/
lemma addInput_ofContents (names : List String) {path : String}
    (h : tree.readInput path = .ok (content path)) :
    addInput tree (ofContents content names) path =
      .ok (ofContents content (if path ∈ names then names else names ++ [path])) := by
  have hlookup := isSome_lookup?_ofContents_iff content names path
  by_cases hmem : path ∈ names
  · rw [addInput, if_pos (hlookup.mpr hmem), if_pos hmem]
  · rw [addInput, if_neg (mt hlookup.mp hmem), if_neg hmem, h, ofContents_concat hmem]
    rfl

/-- Inputs that can all be read make a map of these files, each name once and in the order in which
the names first occur. -/
lemma ofInputs_eq_ok {paths : List String}
    (h : ∀ path ∈ paths, tree.readInput path = .ok (content path)) :
    ofInputs tree paths = .ok (ofContents content paths.eraseDups) := by
  -- from the right end, as the inputs are added: the map holds the different names so far
  induction paths using List.reverseRecOn with
  | nil => rfl
  | append_singleton paths path ih =>
    have hpaths := ih fun p hp => h p (List.mem_append_left _ hp)
    have hpath := h path (List.mem_append_right _ (List.mem_singleton_self path))
    rw [ofInputs] at hpaths ⊢
    rw [List.foldlM_append, hpaths, eraseDups_concat]
    simp only [List.foldlM_cons, List.foldlM_nil, bind_pure]
    change addInput tree (ofContents content paths.eraseDups) path = _
    rw [addInput_ofContents _ hpath]
    simp only [List.mem_eraseDups]

/-- The first input that cannot be read ends the reading. -/
lemma ofInputs_eq_error {done rest : List String} {path : String} {f : Failure}
    (hdone : ∀ p ∈ done, tree.readInput p = .ok (content p))
    (hpath : tree.readInput path = .error f) :
    ofInputs tree (done ++ path :: rest) = .error f := by
  -- a name that was read before is not looked up again, but this one is new
  have hnew : path ∉ done := by
    intro hmem
    rw [hdone path hmem] at hpath
    cases hpath
  have hlookup := isSome_lookup?_ofContents_iff content done.eraseDups path
  rw [List.mem_eraseDups] at hlookup
  have hinputs := ofInputs_eq_ok hdone
  rw [ofInputs] at hinputs ⊢
  rw [List.foldlM_append, hinputs]
  change ((addInput tree (ofContents content done.eraseDups) path).bind fun m =>
    rest.foldlM (addInput tree) m) = _
  rw [addInput, if_neg (mt hlookup.mp hnew), hpath]
  rfl

/-- If some path holds no text, the first of these among the different paths decides how reading
them fails. -/
lemma exists_ofInputs_eq_error {paths : List String}
    (h : ¬ ∀ path ∈ paths, ∃ content, tree.Holds path content) :
    ∃ done path rest f, paths.eraseDups = done ++ path :: rest ∧
      (∀ p ∈ done, ∃ content, tree.Holds p content) ∧ tree.Unreadable path f ∧
      ofInputs tree paths = .error f := by
  obtain ⟨done, path, rest, rest', rfl, hdone, hpath, hdups⟩ := exists_first_not h
  obtain ⟨f, hf⟩ := FileTree.exists_unreadable (not_exists.mp hpath)
  refine ⟨done.eraseDups, path, rest', f, hdups, ?_, hf, ?_⟩
  · intro p hp
    exact hdone p (List.mem_eraseDups.mp hp)
  · choose! content hcontent using hdone
    have hread : ∀ p ∈ done, tree.readInput p = .ok (content p) := fun p hp =>
      FileTree.readInput_eq_ok_iff.mpr (hcontent p hp)
    exact ofInputs_eq_error hread (FileTree.readInput_eq_error_iff.mpr hf)

end SourceMap

end EdnTokens
