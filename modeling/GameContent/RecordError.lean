import GameContent.Entity.AreaKind
import GameContent.Text.Quoted

/-!
# `RecordError` — what can go wrong with records

The causes for which a record cannot be built, found, referred to or registered, and their wording.
-/

namespace GameContent

/-- Why an operation on records fails. -/
inductive RecordError where
  /-- A record of type `record` was given an area of effect of the wrong kind. -/
  | wrongAreaKind (record : String) (expected found : AreaKind)
  /-- No active collection holds a record with the id. -/
  | unknownRecord (id : String)
  /-- A record without an id of its own was to be referred to. -/
  | notReferenceable (typeName : String)
  /-- There is no collection to register into. -/
  | noActiveCollection
deriving DecidableEq, Repr

/-- The wording of the error. -/
def RecordError.message : RecordError → String
  | .wrongAreaKind record expected found =>
    record ++ " expects an area of effect of kind " ++ expected.name ++ ", got " ++ found.name
  | .unknownRecord id => "no record with id " ++ Text.quoted id ++ " in the active collections"
  | .notReferenceable typeName => "record [" ++ typeName ++ "] has no identity to reference"
  | .noActiveCollection => "no active collection to register into"

end GameContent
