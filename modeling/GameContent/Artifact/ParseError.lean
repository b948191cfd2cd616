import GameContent.Text.Quoted

/-!
# `Artifact.ParseError` — malformed blocks

The three ways in which the text of an artifact can be malformed, with their codes and wording.
Blocks are counted from the start of the text; whatever stands before the first opening bracket is
block 0.
-/

namespace GameContent

/-- Why a text is not an artifact. -/
inductive ParseError where
  /-- The header of a block has no closing bracket. -/
  | missingBracket (block : Nat) (text : String)
  /-- A block has a second closing bracket. -/
  | strayBracket (block : Nat) (text : String)
  /-- A field of a block has no `=`. -/
  | missingEquals (record field : String)
deriving DecidableEq, Repr

namespace ParseError

/-- The short code of the error. -/
def code : ParseError → String
  | .missingBracket .. => "P001"
  | .strayBracket .. => "P002"
  | .missingEquals .. => "P003"

/-- What is wrong, without the code. -/
def description : ParseError → String
  | .missingBracket block text =>
    "block " ++ toString block ++ " has no closing `]`: " ++ Text.quoted text
  | .strayBracket block text =>
    "block " ++ toString block ++ " has more than one `]`: " ++ Text.quoted text
  | .missingEquals record field =>
    "field " ++ Text.quoted field ++ " in [" ++ record ++ "] has no `=`"

/-- The wording of the error. -/
def message (e : ParseError) : String :=
  "[" ++ e.code ++ "] " ++ e.description

end ParseError
end GameContent
