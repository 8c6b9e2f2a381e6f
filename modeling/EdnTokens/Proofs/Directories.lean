import Mathlib.Data.List.DropRight
import EdnTokens.Proofs.Files

/-!
# Directories and what lies in them

A directory that was made successfully is there afterwards, under the path that was asked for
(`FileTree.isDirectory_of_makeDirectories`). This is not obvious, since it is made at the path
without the slashes at its end. Each of these slashes adds an empty part, and an empty part stays
where it is as soon as the directory is there.

In a directory a name leads one step further, however the path of the directory ends
(`FileTree.locate?_join`).
-/

namespace EdnTokens

/-- Only copies of the character are taken off the end. -/
lemma Text.exists_eq_dropTrailing_append (c : Char) (t : Text) :
    ∃ n, t = dropTrailing c t ++ List.replicate n c := by
  have hcopies : t.rtakeWhile (· == c) = List.replicate (t.rtakeWhile (· == c)).length c := by
    apply List.eq_replicate_of_mem
    intro d hd
    have hd := List.mem_rtakeWhile_imp hd
    exact eq_of_beq hd
  refine ⟨(t.rtakeWhile (· == c)).length, ?_⟩
  rw [← hcopies]
  exact List.rdropWhile_append_rtakeWhile.symm

namespace Path

/-! ### Parts -/

/-- Every path has a part, if only an empty one. -/
lemma splitSlashes_ne_nil (cs : List Char) : splitSlashes cs ≠ [] := by
  unfold splitSlashes
  split
  · exact List.cons_ne_nil _ _
  · repeat' split
    all_goals exact List.cons_ne_nil _ _

/-- A slash divides the parts before it from those behind it. -/
lemma splitSlashes_append_slash (cs ds : List Char) :
    splitSlashes (cs ++ '/' :: ds) = splitSlashes cs ++ splitSlashes ds := by
  induction cs with
  | nil => simp [splitSlashes]
  | cons c cs ih =>
    rw [List.cons_append, splitSlashes, splitSlashes, ih]
    by_cases hc : c = '/'
    · rw [if_pos hc, if_pos hc, List.cons_append]
    · rw [if_neg hc, if_neg hc]
      cases hsplit : splitSlashes cs with
      | nil => exact absurd hsplit (splitSlashes_ne_nil cs)
      | cons part parts => rfl

/-- Each slash at the end adds an empty part. -/
lemma splitSlashes_append_replicate (cs : List Char) (n : Nat) :
    splitSlashes (cs ++ List.replicate n '/') = splitSlashes cs ++ List.replicate n [] := by
  induction n generalizing cs with
  | zero => simp
  | succ n ih =>
    rw [List.replicate_succ, splitSlashes_append_slash]
    have hslashes := ih []
    rw [List.nil_append] at hslashes
    rw [hslashes]
    rfl

/-- The parts of two paths with a slash between them are the parts of both. -/
lemma parts_append_slash (path rest : String) :
    parts (path ++ "/" ++ rest) = parts path ++ parts rest := by
  have hchars : (path ++ "/" ++ rest).toList = path.toList ++ '/' :: rest.toList := by
    simp [String.toList_append]
  rw [parts, hchars, splitSlashes_append_slash, List.map_append]
  rfl

/-- Whether a path starts at the root does not depend on what is put behind it. -/
lemma isAbsolute_append {path : String} (h : path ≠ "") (rest : String) :
    isAbsolute (path ++ rest) = isAbsolute path := by
  have hne : path.toList ≠ [] := by
    intro hnil
    exact h (String.toList_eq_nil_iff.mp hnil)
  rw [isAbsolute, isAbsolute, String.toList_append, List.head?_append_of_ne_nil _ hne]

/-- A name is put behind a slash, which may be the one at the end of the path. -/
lemma exists_join_eq {path : String} (h : path ≠ "") (name : String) :
    ∃ shorter, join path name = shorter ++ "/" ++ name ∧
      (path = shorter ∨ path = shorter ++ "/") := by
  unfold join
  cases hlast : path.toList.getLast? with
  | none =>
    have hnil := List.getLast?_eq_none_iff.mp hlast
    exact absurd (String.toList_eq_nil_iff.mp hnil) h
  | some c =>
    by_cases hc : c = '/'
    · obtain ⟨shorter, hshorter⟩ := List.getLast?_eq_some_iff.mp hlast
      have hpath : path = String.ofList shorter ++ "/" := by
        rw [← String.toList_inj, String.toList_append, String.toList_ofList, hshorter, hc]
        rfl
      refine ⟨String.ofList shorter, ?_, .inr hpath⟩
      simp only [if_pos hc]
      rw [← hpath]
    · refine ⟨path, ?_, .inl rfl⟩
      simp only [if_neg hc]

end Path

namespace FileTree

variable {t t' : FileTree} {location place : List String} {path : String}

/-! ### Where slashes lead -/

/-- Parts are followed one after the other, so they may be followed in two stages. -/
lemma follow?_append (t : FileTree) (location : List String) (parts more : List String) :
    t.follow? location (parts ++ more) =
      (t.follow? location parts).bind fun place => t.follow? place more := by
  induction parts generalizing location with
  | nil => rfl
  | cons part parts ih =>
    rw [List.cons_append, follow?, follow?]
    cases t.step? location part with
    | none => rfl
    | some next => exact ih next

/-- Empty parts stay in a directory. -/
lemma follow?_replicate (h : t.hasDirectory location = true) (n : Nat) :
    t.follow? location (List.replicate n "") = some location := by
  induction n with
  | zero => rfl
  | succ n ih =>
    rw [List.replicate_succ, follow?, step?_of_isIdle h (by decide)]
    exact ih

/-- An empty part leads nowhere else. -/
lemma eq_of_follow?_empty (h : t.follow? location [""] = some place) : location = place := by
  cases hdirectory : t.hasDirectory location with
  | false =>
    rw [follow?, step?_of_no_directory hdirectory] at h
    cases h
  | true =>
    have hstay := follow?_replicate hdirectory 1
    exact Option.some.inj (hstay.symm.trans h)

/-- A path has a location if it is one at all and all its parts can be followed. -/
lemma locate?_eq_some_iff :
    t.locate? path = some location ↔
      path ≠ "" ∧ Path.isUsable path = true ∧
        t.follow? (if Path.isAbsolute path then [] else t.workingDirectory) (Path.parts path) =
          some location := by
  unfold locate?
  by_cases hbad : path = "" ∨ !Path.isUsable path
  · rw [if_pos hbad]
    simp only [reduceCtorEq, false_iff]
    rintro ⟨hne, husable, -⟩
    simp [hne, husable] at hbad
  · rw [if_neg hbad]
    rw [not_or, Bool.not_eq_true, Bool.not_eq_false'] at hbad
    simp [hbad]

/-- Slashes at the end of the path of a directory lead nowhere else. -/
lemma locate?_of_dropFinalSlashes (h : t.locate? (dropFinalSlashes path) = some location)
    (hdirectory : t.hasDirectory location = true) (husable : Path.isUsable path = true) :
    t.locate? path = some location := by
  by_cases hnil : Text.dropTrailing '/' path.toList = []
  · rwa [dropFinalSlashes, if_pos hnil] at h
  · obtain ⟨n, hn⟩ := Text.exists_eq_dropTrailing_append '/' path.toList
    rw [dropFinalSlashes, if_neg hnil, locate?_eq_some_iff] at h
    obtain ⟨hne, -, hfollow⟩ := h
    generalize Text.dropTrailing '/' path.toList = shorter at *
    have hpath : path = String.ofList shorter ++ String.ofList (List.replicate n '/') := by
      rw [← String.toList_inj, String.toList_append, String.toList_ofList, String.toList_ofList, hn]
    -- every slash at the end adds an empty part, and an empty part stays in a directory
    have hparts : Path.parts path = Path.parts (String.ofList shorter) ++ List.replicate n "" := by
      rw [Path.parts, hn, Path.splitSlashes_append_replicate, List.map_append, List.map_replicate,
        Path.parts, String.toList_ofList]
    have hroot : Path.isAbsolute path = Path.isAbsolute (String.ofList shorter) := by
      rw [hpath, Path.isAbsolute_append hne]
    rw [locate?_eq_some_iff]
    refine ⟨?_, husable, ?_⟩
    · rintro rfl
      simp [hnil] at hn
    · rw [hroot, hparts, follow?_append, hfollow, Option.bind_some,
        follow?_replicate hdirectory]

/-- In a directory a name leads one step further. -/
lemma locate?_join {name : String} (h : t.locate? path = some location)
    (hname : Path.parts name = [name])
    (husable : Path.isUsable (Path.join path name) = true) :
    t.locate? (Path.join path name) = t.step? location name := by
  obtain ⟨hne, -, hfollow⟩ := locate?_eq_some_iff.mp h
  obtain ⟨shorter, hjoin, hpath⟩ := Path.exists_join_eq hne name
  -- joining keeps the first character of the path, which decides where the search begins
  have hroot : Path.isAbsolute (Path.join path name) = Path.isAbsolute path := by
    rcases hpath with rfl | rfl
    · rw [hjoin, String.append_assoc, Path.isAbsolute_append hne]
    · rw [hjoin, Path.isAbsolute_append hne]
  have hshorter : t.follow? (if Path.isAbsolute path then [] else t.workingDirectory)
      (Path.parts shorter) = some location := by
    rcases hpath with rfl | hslash
    · exact hfollow
    · -- the last part of the path is empty and stays where the parts before it lead
      have hparts : Path.parts path = Path.parts shorter ++ [""] := by
        have happend := Path.parts_append_slash shorter ""
        rwa [String.append_empty, ← hslash] at happend
      rw [hparts, follow?_append] at hfollow
      obtain ⟨place, hplace, hstay⟩ := Option.bind_eq_some_iff.mp hfollow
      rw [hplace, eq_of_follow?_empty hstay]
  have hjoined : Path.join path name ≠ "" := by
    intro hempty
    have hslash := congrArg String.toList (hjoin.symm.trans hempty)
    simp [String.toList_append] at hslash
  have hbad : ¬ (Path.join path name = "" ∨ !Path.isUsable (Path.join path name)) := by
    simp [hjoined, husable]
  rw [locate?, if_neg hbad, hroot, hjoin, Path.parts_append_slash, follow?_append, hshorter,
    Option.bind_some, hname, follow?]
  cases t.step? location name <;> rfl

/-! ### Directories that were made -/

/-- A directory that was made is there. -/
lemma isDirectory_of_makeDirectory (h : t.makeDirectory path = .made t') :
    t'.isDirectory path = true := by
  have hgrows := grows_of_makeDirectory h
  obtain ⟨place, husable, hplace, -, rfl⟩ := exists_of_makeDirectory h
  have hdirectory : (t.set place .directory).hasDirectory place = true := by
    rw [FileTree.hasDirectory, entryAt?_set_self]
    rfl
  have hlocate := locate?_of_dropFinalSlashes (hgrows.locate? hplace) hdirectory husable
  rw [isDirectory, entry?, hlocate]
  exact hdirectory

/-- The innermost of the nested paths is that of a directory if all could be made. -/
lemma isDirectory_of_makeNested {outer : List String}
    (h : t.makeNested (path :: outer) = (true, t')) : t'.isDirectory path = true := by
  unfold makeNested at h
  split at h
  case h_1 t₁ hmade =>
    cases h
    exact isDirectory_of_makeDirectory hmade
  case h_2 =>
    split at h
    case h_1 => cases h
    case h_2 t₁ hready =>
      split at h
      case h_1 t₂ hmade =>
        cases h
        exact isDirectory_of_makeDirectory hmade
      case h_2 =>
        obtain ⟨hdirectory, rfl⟩ := Prod.mk.inj h
        exact hdirectory
  case h_3 =>
    obtain ⟨hdirectory, rfl⟩ := Prod.mk.inj h
    exact hdirectory

/-- Directories that were made are there. -/
lemma isDirectory_of_makeDirectories (hpath : path ≠ "")
    (h : t.makeDirectories path = (true, t')) : t'.isDirectory path = true := by
  rw [makeDirectories, if_neg hpath] at h
  exact isDirectory_of_makeNested h

end FileTree

end EdnTokens
