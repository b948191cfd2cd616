import GameContent.Identity
import GameContent.Properties
import GameContent.RecordError

/-!
# `Record` — tagged blocks of properties

A record has a type name, an identity, a property bag, and the records that it owns.
-/

namespace GameContent

/-- A tagged block of properties. -/
structure Record where
  /-- The name of the record's type, as it stands in the header of its block. -/
  typeName : String
  /-- How the record is named. -/
  identity : Identity
  /-- The record's own properties. -/
  properties : Properties
  /-- The records that this one owns. They are written right after it. -/
  subrecords : List Record

namespace Record

instance : Inhabited Record := ⟨⟨"", default, ∅, []⟩⟩

/-- The record's own id, if it is named. -/
def id? (r : Record) : Option String :=
  r.identity.id?

/-- The same record with one property set. -/
def set (r : Record) (key : String) (value : Value) : Record :=
  { r with properties := r.properties.set key value }

/-- The same record with one more record at the end of those it owns. -/
def pushSubrecord (r sub : Record) : Record :=
  { r with subrecords := r.subrecords ++ [sub] }

/-- A reference to the record. Only a named record can be referred to. -/
def reference (r : Record) : Except RecordError RecordRef :=
  match r.id? with
  | some id => .ok ⟨id⟩
  | none => .error (.notReferenceable r.typeName)

theorem id?_eq_some_iff {r : Record} {id : String} :
    r.id? = some id ↔ r.identity = .named id := by
  unfold id?
  cases r.identity <;> simp [Identity.id?]

@[simp] theorem id?_set (r : Record) (key : String) (value : Value) :
    (r.set key value).id? = r.id? := rfl

end Record
end GameContent
