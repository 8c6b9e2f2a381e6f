import EdnTokens.Source.File

/-!
# Source maps

The files of one run, numbered from zero in the order in which they were added. Several files may
have one name; the name then stands for the newest. Names are looked up in a table of their own,
which is kept along with the files.
-/

namespace EdnTokens

/-- Files in the order in which they were added, with a table of their names. -/
structure SourceMap where
  files : Array SourceFile := #[]
  /-- The number of the file that a name stands for; every name has at most one entry. -/
  byName : List (String × Nat) := []

/-- A number that no file of a map has. -/
structure UnknownFile where
  id : Nat
  deriving DecidableEq, Repr

/-- The wording of an unknown file number. -/
def UnknownFile.message (e : UnknownFile) : String :=
  "Unknown file id: " ++ String.ofList (Text.ofNat e.id)

namespace SourceMap

/-- The map without files. -/
def empty : SourceMap := {}

/-- Number of files. -/
def size (m : SourceMap) : Nat :=
  m.files.size

/-- A table of names after `name` was made to stand for a number, whatever it stood for before. -/
def point (name : String) (id : Nat) (table : List (String × Nat)) : List (String × Nat) :=
  (name, id) :: table.filter fun entry => entry.1 != name

/-- The number of the next file, and the map with that file added. Its name now stands for it. -/
def add (m : SourceMap) (name : String) (content : Text) : Nat × SourceMap :=
  (m.size,
    { files := m.files.push { name, content }
      byName := point name m.size m.byName })

/-- The file with a number. -/
def get? (m : SourceMap) (id : Nat) : Option SourceFile :=
  m.files[id]?

/-- The file with a number, or the complaint that there is none. -/
def get (m : SourceMap) (id : Nat) : Except UnknownFile SourceFile :=
  match m.get? id with
  | some f => .ok f
  | none => .error ⟨id⟩

/-- The number of the file that a name stands for. -/
def lookup? (m : SourceMap) (name : String) : Option Nat :=
  m.byName.lookup name

/-- The place where a span begins, in the file it lies in. -/
def location? (m : SourceMap) (span : Span) : Option Text :=
  (m.get? span.file).map fun f => f.location span.start

/-! ### Names -/

/-- Taking the entries of one name out of a table changes nothing for another name. -/
theorem lookup_filter_ne {name x : String} (h : x ≠ name) (table : List (String × Nat)) :
    (table.filter fun entry => entry.1 != name).lookup x = table.lookup x := by
  induction table with
  | nil => rfl
  | cons entry table ih =>
    obtain ⟨other, id⟩ := entry
    by_cases hname : other = name
    · have hother : (x == other) = false := beq_eq_false_iff_ne.mpr (hname ▸ h)
      rw [List.filter_cons_of_neg (by simp [hname]), ih]
      simp only [List.lookup_cons, hother]
    · rw [List.filter_cons_of_pos (by simp [hname])]
      simp only [List.lookup_cons, ih]

/-- Only the name that is pointed elsewhere changes what it stands for. -/
theorem lookup_point (name : String) (id : Nat) (table : List (String × Nat)) (x : String) :
    (point name id table).lookup x = if name = x then some id else table.lookup x := by
  by_cases h : name = x
  · rw [point, if_pos h, h, List.lookup_cons_self]
  · have hother : (x == name) = false := beq_eq_false_iff_ne.mpr (Ne.symm h)
    rw [point, if_neg h, ← lookup_filter_ne (Ne.symm h) table]
    simp only [List.lookup_cons, hother]

/-- A new file takes its name over. -/
theorem lookup?_add (m : SourceMap) (name : String) (content : Text) (x : String) :
    (m.add name content).2.lookup? x = if name = x then some m.size else m.lookup? x :=
  lookup_point name m.size m.byName x

end SourceMap

end EdnTokens
