import GameContent.Record

/-!
# `Collection` — the items of an artifact

A collection is a sequence of records, comments and nested collections. Looking a record up and
changing it in place walk the items depth-first, from left to right, and meet only the records that
are items themselves: the records that another record owns are not found.
-/

namespace GameContent

/-- A member of a collection. -/
inductive Item where
  /-- A record. -/
  | record (r : Record)
  /-- A text that is written as comment lines. -/
  | comment (text : String)
  /-- A collection inside the collection. -/
  | collection (items : List Item)

/-- An ordered sequence of items. -/
abbrev Collection := List Item

instance : Inhabited Item := ⟨.collection []⟩

instance : Coe Record Item := ⟨.record⟩

mutual

/-- The records of an item in depth-first order, those they own left out. -/
def Item.records : Item → List Record
  | .record r => [r]
  | .comment _ => []
  | .collection items => Collection.records items

/-- The records of a collection in depth-first order, those they own left out. -/
def Collection.records : List Item → List Record
  | [] => []
  | item :: items => item.records ++ Collection.records items

end

mutual

/-- The first record of an item with the id. -/
def Item.findRecord? (id : String) : Item → Option Record
  | .record r => if r.id? = some id then some r else none
  | .comment _ => none
  | .collection items => Collection.findRecord? id items

/-- The first record of a collection with the id, nested collections included. -/
def Collection.findRecord? (id : String) : List Item → Option Record
  | [] => none
  | item :: items =>
    match item.findRecord? id with
    | some r => some r
    | none => Collection.findRecord? id items

end

mutual

/-- The item with its first record of the id changed, or `none` if it has no such record. -/
def Item.updateRecord? (id : String) (f : Record → Record) : Item → Option Item
  | .record r => if r.id? = some id then some (.record (f r)) else none
  | .comment _ => none
  | .collection items => (Collection.updateRecord? id f items).map .collection

/-- The collection with its first record of the id changed, or `none` if it has no such record. -/
def Collection.updateRecord? (id : String) (f : Record → Record) : List Item → Option (List Item)
  | [] => none
  | item :: items =>
    match item.updateRecord? id f with
    | some item => some (item :: items)
    | none => (Collection.updateRecord? id f items).map (item :: ·)

end

/-- The own ids of the records that are items of the collection itself. -/
def Collection.topLevelIds (items : Collection) : List (Option String) :=
  items.filterMap fun
    | .record r => some r.id?
    | _ => none

end GameContent
