import EdnTokens.Token.Basic

/-!
# Tiling

A list of tokens tiles a text if the tokens follow each other without gap or overlap, their texts
make up the text, and the list ends with its one end token (`Tiles`). The check `tilingFault?` looks
for the first violation.
-/

namespace EdnTokens

/-- Tokens that stand one directly behind the other, the first of them at `offset`. -/
inductive Consecutive : Nat → List Token → Prop
  | nil (offset : Nat) : Consecutive offset []
  | cons {t : Token} {ts : List Token} (h : Consecutive (t.start + t.length) ts) :
    Consecutive t.start (t :: ts)

/-- Tokens that tile a text. -/
structure Tiles (source : Text) (tokens : List Token) : Prop where
  /-- There is no gap and no overlap. -/
  consecutive : Consecutive 1 tokens
  /-- The texts make up the source. -/
  texts : tokens.flatMap Token.text = source
  /-- The end token is the last one, has no text, and is the only one of its kind. -/
  ends : ∃ body last, tokens = body ++ [last] ∧ last.kind = .eof ∧ last.text = [] ∧
    ∀ t ∈ body, t.kind ≠ .eof

/-! ### The check -/

/-- Why a list of tokens does not tile a text. -/
inductive TilingFault
  /-- A token does not start where the one before it ended. -/
  | misplaced (token : Token) (expected : Nat)
  /-- An end token has a text. -/
  | eofWithText (text : Text)
  /-- The last token is not the end token. -/
  | noEof
  /-- There are several end tokens. -/
  | manyEofs
  /-- The texts of the tokens do not make up the text. -/
  | otherText
  deriving DecidableEq

/-- The wording of a fault. -/
def TilingFault.message : TilingFault → Text
  | misplaced token expected =>
    "token ".toList ++ token.display ++ " starts at ".toList ++ Text.ofNat token.start ++
      ", expected ".toList ++ Text.ofNat expected
  | eofWithText text => "eof token carries text ".toList ++ Text.quoted text
  | noEof => "token stream does not end with eof".toList
  | manyEofs => "token stream holds more than one eof".toList
  | otherText => "token texts do not reconstruct the input".toList

namespace Token

/-- The first fault in the places and texts of tokens the first of which should start at
`expected`. -/
def placementFault? (expected : Nat) : List Token → Option TilingFault
  | [] => none
  | t :: ts =>
    if t.start ≠ expected then some (.misplaced t expected)
    else if t.kind = .eof ∧ t.text ≠ [] then some (.eofWithText t.text)
    else placementFault? (expected + t.length) ts

/-- The first fault that keeps tokens from tiling a text. -/
def tilingFault? (source : Text) (tokens : List Token) : Option TilingFault :=
  match placementFault? 1 tokens with
  | some fault => some fault
  | none =>
    if tokens.getLast?.map Token.kind ≠ some .eof then some .noEof
    else if tokens.countP Token.isEof ≠ 1 then some .manyEofs
    else if tokens.flatMap Token.text ≠ source then some .otherText
    else none

end Token

end EdnTokens
