import EdnTokens.Token.Kind

/-!
# Token attributes

A small map from keys to values that remembers the order in which keys were first inserted.
Replacing a value keeps the place of its key.
-/

namespace EdnTokens

/-- Attributes of a token, each key once, in order of first insertion. -/
structure Attributes where
  entries : List (String × String) := []
  nodup : (entries.map Prod.fst).Nodup := by simp
  deriving DecidableEq

namespace Attributes

/-- The key under which the classification of malformed input is kept. -/
def errorTypeKey : String :=
  "error-type"

/-- No attributes. -/
def empty : Attributes := {}

/-- The value of a key. -/
def get? (a : Attributes) (key : String) : Option String :=
  (a.entries.find? (fun e => e.1 == key)).map Prod.snd

/-- Number of keys. -/
def size (a : Attributes) : Nat :=
  a.entries.length

/-- Entries after setting `key` to `value`. -/
def put (key value : String) (entries : List (String × String)) : List (String × String) :=
  if key ∈ entries.map Prod.fst then
    entries.map (fun e => if e.1 = key then (key, value) else e)
  else
    entries ++ [(key, value)]

/-- Setting a key keeps the keys that are there, and adds it at the end if it is new. -/
theorem map_fst_put (key value : String) (entries : List (String × String)) :
    (put key value entries).map Prod.fst =
      if key ∈ entries.map Prod.fst then entries.map Prod.fst
      else entries.map Prod.fst ++ [key] := by
  unfold put
  split
  · rw [List.map_map]
    apply List.map_congr_left
    intro e _
    by_cases h : e.1 = key <;> simp [h]
  · simp

/-- Attributes with `key` set to `value`. -/
def insert (a : Attributes) (key value : String) : Attributes where
  entries := put key value a.entries
  nodup := by
    rw [map_fst_put]
    split
    · exact a.nodup
    · rename_i h
      rw [List.nodup_append]
      refine ⟨a.nodup, by simp, ?_⟩
      intro x hx y hy
      rw [List.mem_singleton] at hy
      rintro rfl
      exact h (hy ▸ hx)

/-- The attributes of malformed input of the given type. -/
def ofErrorType : Option ErrorType → Attributes
  | some e => empty.insert errorTypeKey e.name
  | none => empty

/-- The error type recorded in the attributes, if there is one and its name is known. -/
def errorType? (a : Attributes) : Option ErrorType :=
  (a.get? errorTypeKey).bind fun s => (ErrorType.ofName s).toOption

/-- The attributes of malformed input hold the name of its error type. -/
theorem get?_ofErrorType (e : Option ErrorType) :
    (ofErrorType e).get? errorTypeKey = e.map ErrorType.name := by
  cases e with
  | none => rfl
  | some e => simp [ofErrorType, empty, insert, put, get?]

/-- The error type is found in the attributes made of it. -/
theorem errorType?_ofErrorType (e : Option ErrorType) : (ofErrorType e).errorType? = e := by
  cases e with
  | none => rfl
  | some e => cases e <;> rfl

end Attributes

end EdnTokens
