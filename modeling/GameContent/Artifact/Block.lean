import GameContent.Artifact.ParseError
import GameContent.Properties
import GameContent.Text.Pieces
import GameContent.Value.Reading

/-!
# `Artifact.Block` — reading artifacts

An artifact is read as a list of property bags, one for each block `[name] key=value; …`. The name
of the block stands under `typeKey`; a key that occurs again collects its values in a list.

## Contents
- `blockTexts` cuts a text into blocks: comments go, and every opening bracket starts a block.
- `readHeader` takes a block apart into its name and its body.
- `readFields` reads the body, and `parse` the whole text. The first malformed block is reported.
-/

namespace GameContent
namespace Block

/-- The key under which the name of a block stands. -/
def typeKey : String := "__type__"

/-- The texts of the blocks, with what stands before the first opening bracket in front. -/
def blockTexts (text : String) : List (List Char) :=
  Text.pieces '[' (Text.trim (Text.withoutComments text.toList))

/-- The name and the body of the block with the given number. The name ends at a closing bracket,
    and there is no other in the block. -/
def readHeader (number : Nat) (block : List Char) :
    Except ParseError (List Char × List Char) :=
  match Text.cut ']' block with
  | none => .error (.missingBracket number (String.ofList (Text.trim block)))
  | some (name, body) =>
    if ']' ∈ body then .error (.strayBracket number (String.ofList (Text.trim block)))
    else .ok (Text.trim name, body)

/-- The fields of a body as trimmed texts. Blank ones do not count. -/
def fieldTexts (body : List Char) : List (List Char) :=
  ((Text.pieces ';' (Text.trim body)).map Text.trim).filter (!·.isEmpty)

/-- The key and the value of a field of the named block. -/
def readField (name : List Char) (field : List Char) : Except ParseError (String × Value) :=
  match Text.cut '=' field with
  | none => .error (.missingEquals (String.ofList name) (String.ofList field))
  | some (key, value) => .ok (String.ofList (Text.trim key), Value.ofChars value)

/-- The fields of several field texts, or the first error. -/
def readFields (name : List Char) : List (List Char) → Except ParseError (List (String × Value))
  | [] => .ok []
  | field :: fields => do
    let entry ← readField name field
    let entries ← readFields name fields
    return entry :: entries

/-- The bag of a block: its name, and its fields accumulated in order. -/
def bag (name : List Char) (fields : List (String × Value)) : Properties :=
  fields.foldl (fun p e => p.append e.1 e.2) ((∅ : Properties).set typeKey (String.ofList name))

/-- The bag of the block with the given number. -/
def read (number : Nat) (block : List Char) : Except ParseError Properties := do
  let (name, body) ← readHeader number block
  let fields ← readFields name (fieldTexts body)
  return bag name fields

/-- The bags of the blocks counted from `number`, or the first error. Blank blocks are skipped, but
    they count. -/
def readAll (number : Nat) : List (List Char) → Except ParseError (List Properties)
  | [] => .ok []
  | block :: blocks =>
    if (Text.trim block).isEmpty then readAll (number + 1) blocks
    else do
      let p ← read number block
      let ps ← readAll (number + 1) blocks
      return p :: ps

end Block

/-- The property bags of the blocks of an artifact, or what is malformed in it. -/
def parse (text : String) : Except ParseError (List Properties) :=
  Block.readAll 0 (Block.blockTexts text)

end GameContent
