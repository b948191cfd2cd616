import GameContent.Record

/-!
# `Entity.ItemType` — drafts of items and actors

Items and actors are drafted property by property and then built into a record. Their flags stand
under `special`, in the built record always as a list.
-/

namespace GameContent

/-- A draft of an item or an actor. -/
structure ItemType where
  /-- The type name of the record. -/
  typeName : String
  /-- The id of the record. -/
  id : String
  /-- The properties set so far. -/
  properties : Properties
  /-- The reactions added so far. -/
  reactions : List Record

namespace ItemType

/-- The key of the flags. -/
def flagsKey : String := "special"

/-- An item without properties. -/
def item (id : String) : ItemType := ⟨"ItemType", id, ∅, []⟩

/-- An actor without properties. -/
def actor (id : String) : ItemType := ⟨"ActorType", id, ∅, []⟩

/-- Sets a property. -/
def property (t : ItemType) (key : String) (value : Value) : ItemType :=
  { t with properties := t.properties.set key value }

/-- Sets every property of a bag, in its order. -/
def withProperties (t : ItemType) (p : Properties) : ItemType :=
  { t with properties := t.properties.extend p }

/-- The flags with one more at the end. A single value counts as one flag. -/
def addFlag (flag : Value) (flags : Option Value) : Value :=
  .list (flags.elim [] Value.toList ++ [flag])

/-- Adds a flag. -/
def special (t : ItemType) (flag : Value) : ItemType :=
  { t with properties := t.properties.upsert flagsKey (addFlag flag) }

/-- Adds a reaction. -/
def reaction (t : ItemType) (r : Record) : ItemType :=
  { t with reactions := t.reactions ++ [r] }

/-- Adds several reactions. -/
def withReactions (t : ItemType) (rs : List Record) : ItemType :=
  { t with reactions := t.reactions ++ rs }

/-- The record of the item or actor, with its flags in list shape and its reactions below it. -/
def build (t : ItemType) : Record where
  typeName := t.typeName
  identity := .named t.id
  properties := t.properties.normalizeList flagsKey
  subrecords := t.reactions

@[simp] theorem id?_build (t : ItemType) : t.build.id? = some t.id := rfl

end ItemType
end GameContent
