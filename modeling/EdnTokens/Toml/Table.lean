import EdnTokens.Text.Basic

/-!
# TOML tables

The data model of a configuration document, and the rules on how headers and dotted keys build
its tables: no table is defined twice, a table made by dotted keys cannot be opened by a header,
and a table written inline is closed.
-/

namespace EdnTokens.Toml

/-- How a table came about. -/
inductive Origin
  /-- It was opened by a header, or is the document itself. -/
  | header
  /-- It was only passed through on the way to the table of a longer header. -/
  | implied
  /-- It was only passed through on the way to a dotted key. -/
  | dotted
  /-- It was written inline. -/
  | inline
  deriving DecidableEq, Repr

/-- A value of a document. Floats and date-times are kept without their value. -/
inductive Node
  | boolean (b : Bool)
  | integer (n : Int)
  | float
  | dateTime
  | string (t : Text)
  | array (items : List Node)
  | table (origin : Origin) (entries : List (Text × Node))
  /-- The tables that repeated headers have opened, each of them a `table`. -/
  | tables (items : List Node)
  deriving Repr

/-- A table: its origin, and its keys with their values. -/
structure Table where
  origin : Origin
  entries : List (Text × Node) := []
  deriving Repr

namespace Table

/-- The table as a value. -/
def toNode (t : Table) : Node :=
  .table t.origin t.entries

/-- The value of a key. -/
def get? (t : Table) (key : Text) : Option Node :=
  (t.entries.find? fun e => e.1 == key).map Prod.snd

/-- The table without a key. -/
def erase (t : Table) (key : Text) : Table :=
  { t with entries := t.entries.filter fun e => e.1 != key }

/-- The table with a key set. -/
def put (t : Table) (key : Text) (value : Node) : Table :=
  if (t.get? key).isSome then
    { t with entries := t.entries.map fun e => if e.1 == key then (key, value) else e }
  else
    { t with entries := t.entries ++ [(key, value)] }

/-- The table with a new key. -/
def insertNew? (t : Table) (key : Text) (value : Node) : Option Table :=
  if (t.get? key).isSome then none else some (t.put key value)

/-- Whether a table may be entered: an inline table is closed, and dotted keys enter only tables
that no header has opened. -/
def isOpenTo (via : Origin) (origin : Origin) : Bool :=
  match origin with
  | .inline => false
  | .header => via != .dotted
  | .implied | .dotted => true

/-- Replaces the table that a path leads to by what `f` makes of it. Tables that are missing on the
way are made with origin `via`; a list of tables stands for the last of them. -/
def descend (via : Origin) (f : Table → Option Table) : List Text → Table → Option Table
  | [], t => f t
  | key :: path, t =>
    match t.get? key with
    | none => (descend via f path ⟨via, []⟩).map fun child => t.put key child.toNode
    | some (.table origin entries) =>
      if isOpenTo via origin then
        (descend via f path ⟨origin, entries⟩).map fun child => t.put key child.toNode
      else none
    | some (.tables items) =>
      match items.getLast? with
      | some (.table origin entries) =>
        (descend via f path ⟨origin, entries⟩).map fun child =>
          t.put key (.tables (items.dropLast ++ [child.toNode]))
      | _ => none
    | some _ => none

/-- The table that a path leads to, under the same rules. -/
def find? (t : Table) : List Text → Option Table
  | [] => some t
  | key :: path =>
    match t.get? key with
    | none => find? ⟨.implied, []⟩ path
    | some (.table origin entries) =>
      if isOpenTo .implied origin then find? ⟨origin, entries⟩ path else none
    | some (.tables items) =>
      match items.getLast? with
      | some (.table origin entries) => find? ⟨origin, entries⟩ path
      | _ => none
    | some _ => none

/-- Sets a dotted key, given as the keys before the last one and the last one. A plain key belongs
to the table itself, and a dotted key only into a table made by dotted keys. -/
def assign (t : Table) (path : List Text) (key : Text) (value : Node) : Option Table :=
  descend .dotted
    (fun target =>
      if path ≠ [] ∧ target.origin ≠ .dotted ∨ path = [] ∧ target.origin = .dotted then none
      else target.insertNew? key value)
    path t

end Table

/-! ### Documents -/

/-- One line of a document. Keys are split into the part before the last key and the last key. -/
inductive Statement
  | header (path : List Text) (key : Text)
  | repeatedHeader (path : List Text) (key : Text)
  | assignment (path : List Text) (key : Text) (value : Node)
  deriving Repr

/-- A document under construction: the table that the last header opened is kept apart until the
next header. -/
structure Draft where
  root : Table := ⟨.header, []⟩
  current : Table := ⟨.header, []⟩
  /-- Where the current table belongs; nothing for the document itself. -/
  place : Option (List Text × Text) := none
  /-- Whether the current table is one of a list of tables. -/
  repeated : Bool := false

namespace Draft

/-- Puts the current table in its place. -/
def settle (d : Draft) : Option Table :=
  match d.place with
  | none => some d.current
  | some (path, key) =>
    d.root |> Table.descend .implied (fun holder =>
      if d.repeated then
        match holder.get? key with
        | none => some (holder.put key (.tables [d.current.toNode]))
        | some (.tables items) => some (holder.put key (.tables (items ++ [d.current.toNode])))
        | some _ => none
      else holder.insertNew? key d.current.toNode) path

/-- Opens a table by a header. A table that was only implied so far keeps its content. -/
def openTable (root : Table) (path : List Text) (key : Text) : Option Draft :=
  match root.find? path with
  | none => none
  | some holder =>
    match holder.get? key with
    | none => some { root, place := some (path, key) }
    | some (.table .implied entries) =>
      (root |> Table.descend .implied (fun holder => some (holder.erase key)) path).map
        fun root => { root, current := ⟨.header, entries⟩, place := some (path, key) }
    | some _ => none

/-- Opens one more table of a list. -/
def openRepeated (root : Table) (path : List Text) (key : Text) : Option Draft :=
  match root.find? path with
  | none => none
  | some holder =>
    match holder.get? key with
    | none | some (.tables _) => some { root, place := some (path, key), repeated := true }
    | some _ => none

/-- The draft after one more line. -/
def add (d : Draft) : Statement → Option Draft
  | .assignment path key value =>
    (d.current.assign path key value).map fun current => { d with current }
  | .header path key => d.settle.bind fun root => openTable root path key
  | .repeatedHeader path key => d.settle.bind fun root => openRepeated root path key

end Draft

/-- The table that the lines of a document describe. -/
def Table.ofStatements (statements : List Statement) : Option Table :=
  (statements.foldlM Draft.add {}).bind Draft.settle

/-- The inline table that pairs of keys and values describe. -/
def Node.ofPairs (pairs : List (List Text × Text × Node)) : Option Node :=
  let table : Option Table :=
    pairs.foldlM (fun t (path, key, value) => t.assign path key value) ⟨.header, []⟩
  table.map fun t => .table .inline t.entries

end EdnTokens.Toml
