import EdnTokens.Text.Basic

/-!
# Extents

An extent tells how many characters at the beginning of a text belong to some construct of the
grammar. Scanners are put together from the extents below. Each decides by the next character
alone how to go on, so that no extent ever has to give characters back.
-/

namespace EdnTokens

/-- Number of characters at the beginning of a text that a construct takes. -/
abbrev Extent := Text → Nat

namespace Extent

/-- The next `n` characters, or as many as there are. -/
def upTo (n : Nat) : Extent :=
  fun t => (t.take n).length

/-- The longest run of characters that satisfy `p`. -/
def run (p : Char → Bool) : Extent :=
  fun t => (t.takeWhile p).length

/-- One character that satisfies `p` and then `m`; nothing if the next character does not
satisfy `p`. -/
def after (p : Char → Bool) (m : Extent) : Extent
  | [] => 0
  | c :: t => if p c then m t + 1 else 0

/-- One character that satisfies `p`, if it is there. -/
def option (p : Char → Bool) : Extent :=
  after p fun _ => 0

/-- First `m`, then `n` on what is left. -/
def followedBy (m n : Extent) : Extent :=
  fun t => m t + n (t.drop (m t))

/-- An extent fits if it never takes more than there is. -/
def Fits (m : Extent) : Prop :=
  ∀ t, m t ≤ t.length

/-- No more characters are taken than there are. -/
theorem fits_upTo (n : Nat) : Fits (upTo n) :=
  fun t => (List.take_sublist n t).length_le

/-- A run is a part of the text. -/
theorem fits_run (p : Char → Bool) : Fits (run p) :=
  fun _ => (List.takeWhile_sublist p).length_le

/-- A character with an extent behind it fits if that extent does. -/
theorem fits_after (p : Char → Bool) {m : Extent} (h : Fits m) : Fits (after p m) := by
  intro t
  cases t with
  | nil => exact Nat.le_refl 0
  | cons c t =>
    have h' := h t
    simp only [after, List.length_cons]
    split <;> omega

/-- One character fits where it is there. -/
theorem fits_option (p : Char → Bool) : Fits (option p) :=
  fits_after p fun _ => Nat.zero_le _

/-- Two extents fit together if each of them does. -/
theorem fits_followedBy {m n : Extent} (hm : Fits m) (hn : Fits n) :
    Fits (followedBy m n) := by
  intro t
  have h₁ := hm t
  have h₂ := hn (t.drop (m t))
  rw [List.length_drop] at h₂
  unfold followedBy
  omega

end Extent

end EdnTokens
