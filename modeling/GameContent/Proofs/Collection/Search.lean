import GameContent.Context

/-!
# `Proofs.Collection.Search` — finding a record and changing it in place

A collection is its outline together with its records in depth-first order
(`Collection.eq_of_outline_eq`). Looking an id up finds the first record with that id, and changing
it in place changes that record and nothing else: neither the other records nor the outline. A
context is the same, with the records of its innermost collection before those of the outer ones.

## Contents
- `changeFirst?` changes the first element of a list that passes a test.
- **Collections.** `Collection.findRecord?_eq`, `Collection.map_records_updateRecord?` and
  `Collection.outline_updateRecord?` say search and change in terms of `records` and `outline`.
- **Contexts.** The same for `Context`. Items that are added to the innermost collection come before
  all outer ones, and `Context.updateRecord?_extend` says when that makes no difference.
- **Registering.** `Context.registerAll_named`: named records all go to the end of the innermost
  collection.
-/

namespace GameContent

/-- Whether an id is the record's own. -/
def Record.hasId (id : String) (r : Record) : Bool :=
  r.id? = some id

@[simp] theorem Record.hasId_iff {id : String} {r : Record} :
    r.hasId id = true ↔ r.id? = some id := by
  simp [Record.hasId]

/-! ## Changing the first element of a list -/

section ChangeFirst
variable {α : Type} {p : α → Bool} {f : α → α}

/-- The list with its first element that passes the test changed, or `none` if no element does. -/
def changeFirst? (p : α → Bool) (f : α → α) (xs : List α) : Option (List α) :=
  (xs.findIdx? p).map fun i => xs.modify i f

@[simp] theorem changeFirst?_nil : changeFirst? p f [] = none := rfl

theorem changeFirst?_cons (x : α) (xs : List α) :
    changeFirst? p f (x :: xs)
      = if p x then some (f x :: xs) else (changeFirst? p f xs).map (x :: ·) := by
  unfold changeFirst?
  rw [List.findIdx?_cons]
  by_cases hx : p x = true
  · rw [if_pos hx, if_pos hx]
    rfl
  · rw [if_neg hx, if_neg hx, Option.map_map, Option.map_map]
    rfl

/-- The first part of a list is searched first. -/
theorem changeFirst?_append (xs ys : List α) :
    changeFirst? p f (xs ++ ys)
      = ((changeFirst? p f xs).map (· ++ ys)).or ((changeFirst? p f ys).map (xs ++ ·)) := by
  induction xs with
  | nil => simp
  | cons x xs ih =>
    rw [List.cons_append, changeFirst?_cons, changeFirst?_cons, ih]
    by_cases hx : p x = true
    · rw [if_pos hx, if_pos hx]
      rfl
    · rw [if_neg hx, if_neg hx]
      cases changeFirst? p f xs <;> simp [Option.map_map, Function.comp_def]

theorem changeFirst?_eq_none_iff {xs : List α} :
    changeFirst? p f xs = none ↔ xs.find? p = none := by
  rw [changeFirst?, Option.map_eq_none_iff, List.findIdx?_eq_none_iff, List.find?_eq_none]
  simp

/-- A view of the elements that a change does not touch is the same after the change. -/
theorem map_modify_of_forall {β : Type} {g : α → β} (h : ∀ a, g (f a) = g a) (xs : List α)
    (i : Nat) : (xs.modify i f).map g = xs.map g := by
  refine List.ext_getElem? fun j => ?_
  rw [List.getElem?_map, List.getElem?_map, List.getElem?_modify]
  cases xs[j]? with
  | none => rfl
  | some a => by_cases hj : i = j <;> simp [hj, h]

end ChangeFirst

/-! ## Collections -/

mutual

/-- The item with every record blanked: where its records and comments stand. -/
def Item.outline : Item → Item
  | .record _ => .record default
  | .comment text => .comment text
  | .collection items => .collection (Collection.outline items)

/-- The collection with every record blanked. -/
def Collection.outline : List Item → List Item
  | [] => []
  | item :: items => item.outline :: Collection.outline items

end

mutual

theorem Item.length_records_outline : ∀ item : Item,
    item.outline.records.length = item.records.length
  | .record _ => rfl
  | .comment _ => rfl
  | .collection items => Collection.length_records_outline items

theorem Collection.length_records_outline : ∀ items : List Item,
    (Collection.records (Collection.outline items)).length = (Collection.records items).length
  | [] => rfl
  | item :: items => by
    rw [Collection.outline, Collection.records, Collection.records, List.length_append,
      List.length_append, item.length_records_outline, Collection.length_records_outline items]

end

mutual

theorem Item.eq_of_outline_eq : ∀ {a b : Item}, a.outline = b.outline → a.records = b.records →
    a = b
  | .record _, .record _, _, hr => by
    rw [List.singleton_inj.1 hr]
  | .comment _, .comment _, ho, _ => ho
  | .collection _, .collection _, ho, hr =>
    congrArg Item.collection (Collection.eq_of_outline_eq (Item.collection.inj ho) hr)

/-- **A collection is its outline and its records.** -/
theorem Collection.eq_of_outline_eq : ∀ {as bs : List Item},
    Collection.outline as = Collection.outline bs → Collection.records as = Collection.records bs →
    as = bs
  | [], [], _, _ => rfl
  | a :: as, b :: bs, ho, hr => by
    obtain ⟨hitem, hitems⟩ := List.cons.inj ho
    -- Equal outlines hold equally many records, so the record lists are cut at the same place.
    have hlen : a.records.length = b.records.length := by
      rw [← a.length_records_outline, ← b.length_records_outline, hitem]
    obtain ⟨hra, hras⟩ := List.append_inj hr hlen
    rw [Item.eq_of_outline_eq hitem hra, Collection.eq_of_outline_eq hitems hras]

end

@[simp] theorem Collection.records_map_record (rs : List Record) :
    Collection.records (rs.map Item.record) = rs := by
  induction rs with
  | nil => rfl
  | cons r rs ih => rw [List.map_cons, Collection.records, ih, Item.records, List.singleton_append]

mutual

theorem Item.findRecord?_eq (id : String) : ∀ item : Item,
    item.findRecord? id = item.records.find? (Record.hasId id)
  | .record r => by
    by_cases h : r.id? = some id <;> simp [Item.findRecord?, Item.records, Record.hasId, h]
  | .comment _ => rfl
  | .collection items => Collection.findRecord?_eq id items

/-- Looking an id up finds the first record that has it. -/
theorem Collection.findRecord?_eq (id : String) : ∀ items : List Item,
    Collection.findRecord? id items = (Collection.records items).find? (Record.hasId id)
  | [] => rfl
  | item :: items => by
    rw [Collection.findRecord?, Collection.records, List.find?_append, ← item.findRecord?_eq id,
      ← Collection.findRecord?_eq id items]
    cases item.findRecord? id <;> rfl

end

mutual

theorem Item.map_records_updateRecord? (id : String) (f : Record → Record) : ∀ item : Item,
    (item.updateRecord? id f).map Item.records = changeFirst? (Record.hasId id) f item.records
  | .record r => by
    by_cases h : r.id? = some id <;>
      simp [Item.updateRecord?, Item.records, Record.hasId, changeFirst?_cons, h]
  | .comment _ => rfl
  | .collection items => by
    rw [Item.updateRecord?, Option.map_map]
    exact Collection.map_records_updateRecord? id f items

/-- Changing a record in place changes the first one that has the id. -/
theorem Collection.map_records_updateRecord? (id : String) (f : Record → Record) :
    ∀ items : List Item, (Collection.updateRecord? id f items).map Collection.records
      = changeFirst? (Record.hasId id) f (Collection.records items)
  | [] => rfl
  | item :: items => by
    rw [Collection.updateRecord?, Collection.records, changeFirst?_append,
      ← item.map_records_updateRecord? id f, ← Collection.map_records_updateRecord? id f items]
    cases item.updateRecord? id f <;>
      simp [Option.map_map, Function.comp_def, Collection.records]

end

mutual

theorem Item.outline_updateRecord? {id : String} {f : Record → Record} : ∀ {item item' : Item},
    item.updateRecord? id f = some item' → item'.outline = item.outline
  | .record r, item', h => by
    rw [Item.updateRecord?] at h
    split at h
    · rw [← Option.some.inj h]
      rfl
    · exact absurd h (by simp)
  | .comment _, _, h => absurd h (by simp [Item.updateRecord?])
  | .collection items, item', h => by
    rw [Item.updateRecord?, Option.map_eq_some_iff] at h
    obtain ⟨items', hitems, rfl⟩ := h
    rw [Item.outline, Item.outline, Collection.outline_updateRecord? hitems]

/-- The outline stays as it is. -/
theorem Collection.outline_updateRecord? {id : String} {f : Record → Record} :
    ∀ {items items' : List Item}, Collection.updateRecord? id f items = some items' →
      Collection.outline items' = Collection.outline items
  | [], _, h => absurd h (by simp [Collection.updateRecord?])
  | item :: items, items', h => by
    rw [Collection.updateRecord?] at h
    split at h
    · rename_i item' hitem
      rw [← Option.some.inj h, Collection.outline, Collection.outline,
        Item.outline_updateRecord? hitem]
    · rw [Option.map_eq_some_iff] at h
      obtain ⟨items', hitems, rfl⟩ := h
      rw [Collection.outline, Collection.outline, Collection.outline_updateRecord? hitems]

end

/-- The own ids of the records of a collection. -/
def Collection.ids (items : List Item) : List (Option String) :=
  (Collection.records items).map Record.id?

theorem Collection.findRecord?_eq_none_iff {id : String} {items : List Item} :
    Collection.findRecord? id items = none ↔ some id ∉ Collection.ids items := by
  rw [Collection.findRecord?_eq, List.find?_eq_none, Collection.ids, List.mem_map]
  simp

/-- A change that leaves the id of a record alone leaves all ids alone. -/
theorem Collection.ids_updateRecord? {id : String} {f : Record → Record}
    (hf : ∀ r, (f r).id? = r.id?) {items items' : List Item}
    (h : Collection.updateRecord? id f items = some items') :
    Collection.ids items' = Collection.ids items := by
  have hrecords := Collection.map_records_updateRecord? id f items
  rw [h, Option.map_some, eq_comm, changeFirst?, Option.map_eq_some_iff] at hrecords
  obtain ⟨i, -, hmodify⟩ := hrecords
  rw [Collection.ids, Collection.ids, ← hmodify, map_modify_of_forall hf]

/-- A collection is searched before what is appended to it. -/
theorem Collection.updateRecord?_append (id : String) (f : Record → Record) (as bs : List Item) :
    Collection.updateRecord? id f (as ++ bs)
      = ((Collection.updateRecord? id f as).map (· ++ bs)).or
          ((Collection.updateRecord? id f bs).map (as ++ ·)) := by
  induction as with
  | nil => simp [Collection.updateRecord?]
  | cons a as ih =>
    rw [List.cons_append, Collection.updateRecord?, Collection.updateRecord?, ih]
    cases a.updateRecord? id f with
    | some a' => rfl
    | none => cases Collection.updateRecord? id f as <;> simp [Option.map_map, Function.comp_def]

theorem Collection.findRecord?_append (id : String) (as bs : List Item) :
    Collection.findRecord? id (as ++ bs)
      = (Collection.findRecord? id as).or (Collection.findRecord? id bs) := by
  induction as with
  | nil => simp [Collection.findRecord?]
  | cons a as ih =>
    rw [List.cons_append, Collection.findRecord?, Collection.findRecord?, ih]
    cases a.findRecord? id <;> rfl

theorem Collection.updateRecord?_eq_none_iff {id : String} {f : Record → Record}
    {items : List Item} :
    Collection.updateRecord? id f items = none ↔ Collection.findRecord? id items = none := by
  rw [Collection.findRecord?_eq, ← changeFirst?_eq_none_iff (f := f),
    ← Collection.map_records_updateRecord?, Option.map_eq_none_iff]

/-! ## Contexts -/

namespace Context

/-- The records of all active collections, those of the innermost one first. -/
def records (ctx : Context) : List Record :=
  ctx.stack.flatMap Collection.records

/-- The active collections with every record blanked. -/
def outline (ctx : Context) : List Collection :=
  ctx.stack.map Collection.outline

/-- The context with more items at the end of its innermost collection, if there is one. -/
def extend (added : List Item) : Context → Context
  | ⟨[]⟩ => ⟨[]⟩
  | ⟨items :: outer⟩ => ⟨(items ++ added) :: outer⟩

/-- Looking an id up finds the first record that has it. -/
theorem findRecord?_eq (id : String) (ctx : Context) :
    ctx.findRecord? id = ctx.records.find? (Record.hasId id) := by
  rw [findRecord?, records, List.find?_flatMap]
  congr 1
  funext items
  exact Collection.findRecord?_eq id items

theorem map_records_updateRecord? (id : String) (f : Record → Record) (ctx : Context) :
    (ctx.updateRecord? id f).map records = changeFirst? (Record.hasId id) f ctx.records := by
  obtain ⟨stack⟩ := ctx
  rw [updateRecord?, Option.map_map]
  induction stack with
  | nil => rfl
  | cons items outer ih =>
    have hrecords : records ⟨items :: outer⟩ = Collection.records items ++ records ⟨outer⟩ := rfl
    rw [updateFirst?, hrecords, changeFirst?_append, ← ih,
      ← Collection.map_records_updateRecord? id f items]
    cases Collection.updateRecord? id f items <;> simp [Option.map_map, Function.comp_def, records]

/-- It is one collection that changes, if any does. -/
theorem exists_split_updateRecord? {id : String} {f : Record → Record} {ctx ctx' : Context}
    (h : ctx.updateRecord? id f = some ctx') :
    ∃ inner items items' outer, ctx.stack = inner ++ items :: outer
      ∧ ctx'.stack = inner ++ items' :: outer
      ∧ Collection.updateRecord? id f items = some items' := by
  obtain ⟨stack⟩ := ctx
  obtain ⟨stack', hstack, rfl⟩ := Option.map_eq_some_iff.1 h
  clear h
  induction stack generalizing stack' with
  | nil => exact absurd hstack (by simp [updateFirst?])
  | cons items outer ih =>
    simp only [updateFirst?] at hstack
    split at hstack
    · rename_i items' hitems
      exact ⟨[], items, items', outer, rfl, (Option.some.inj hstack).symm, hitems⟩
    · obtain ⟨outer', houter, rfl⟩ := Option.map_eq_some_iff.1 hstack
      obtain ⟨inner, old, new, rest, hold, hnew, hupdate⟩ := ih outer' houter
      exact ⟨items :: inner, old, new, rest, congrArg (items :: ·) hold, congrArg (items :: ·) hnew,
        hupdate⟩

theorem outline_updateRecord? {id : String} {f : Record → Record} {ctx ctx' : Context}
    (h : ctx.updateRecord? id f = some ctx') : ctx'.outline = ctx.outline := by
  obtain ⟨inner, items, items', outer, hold, hnew, hupdate⟩ := exists_split_updateRecord? h
  rw [outline, outline, hold, hnew, List.map_append, List.map_append, List.map_cons, List.map_cons,
    Collection.outline_updateRecord? hupdate]

/-- **Changing a record in place.** It is the first record with the id that is changed. -/
theorem exists_records_updateRecord? {id : String} {f : Record → Record} {ctx ctx' : Context}
    (h : ctx.updateRecord? id f = some ctx') :
    ∃ i, ctx.records.findIdx? (Record.hasId id) = some i
      ∧ ctx'.records = ctx.records.modify i f := by
  have hrecords := map_records_updateRecord? id f ctx
  rw [h, changeFirst?, Option.map_some, eq_comm, Option.map_eq_some_iff] at hrecords
  obtain ⟨i, hi, hmodify⟩ := hrecords
  exact ⟨i, hi, hmodify.symm⟩

/-- The own ids of the records of each active collection. -/
def ids (ctx : Context) : List (List (Option String)) :=
  ctx.stack.map Collection.ids

theorem flatten_ids (ctx : Context) : ctx.ids.flatten = ctx.records.map Record.id? := by
  rw [ids, records, List.map_flatMap, ← List.flatMap_def]
  rfl

theorem ids_updateRecord? {id : String} {f : Record → Record} (hf : ∀ r, (f r).id? = r.id?)
    {ctx ctx' : Context} (h : ctx.updateRecord? id f = some ctx') : ctx'.ids = ctx.ids := by
  obtain ⟨inner, items, items', outer, hold, hnew, hupdate⟩ := exists_split_updateRecord? h
  rw [ids, ids, hold, hnew, List.map_append, List.map_append, List.map_cons, List.map_cons,
    Collection.ids_updateRecord? hf hupdate]

/-- Where an id is found depends on the ids only. -/
theorem findIdx?_eq_of_map_id?_eq {ctx ctx' : Context}
    (h : ctx'.records.map Record.id? = ctx.records.map Record.id?) (id : String) :
    ctx'.records.findIdx? (Record.hasId id) = ctx.records.findIdx? (Record.hasId id) := by
  have hids : ∀ c : Context, c.records.findIdx? (Record.hasId id)
      = (c.records.map Record.id?).findIdx? fun own => own = some id := fun c => by
    rw [List.findIdx?_map]
    rfl
  rw [hids, hids, h]

theorem findIdx?_eq_of_ids_eq {ctx ctx' : Context} (h : ctx'.ids = ctx.ids) (id : String) :
    ctx'.records.findIdx? (Record.hasId id) = ctx.records.findIdx? (Record.hasId id) := by
  refine findIdx?_eq_of_map_id?_eq ?_ id
  rw [← flatten_ids, ← flatten_ids, h]

/-- Whether an id is found depends on the ids only. -/
theorem isNone_findRecord?_eq_of_ids_eq {ctx ctx' : Context} (h : ctx'.ids = ctx.ids)
    (id : String) : (ctx'.findRecord? id).isNone = (ctx.findRecord? id).isNone := by
  have hindex : ∀ c : Context,
      (c.findRecord? id).isNone = (c.records.findIdx? (Record.hasId id)).isNone := fun c => by
    rw [findRecord?_eq, Bool.eq_iff_iff, Option.isNone_iff_eq_none, Option.isNone_iff_eq_none,
      List.find?_eq_none, List.findIdx?_eq_none_iff]
    simp only [Bool.not_eq_true]
  rw [hindex, hindex, findIdx?_eq_of_ids_eq h]

theorem updateRecord?_eq_none_iff {id : String} {f : Record → Record} {ctx : Context} :
    ctx.updateRecord? id f = none ↔ ctx.findRecord? id = none := by
  rw [findRecord?_eq, ← changeFirst?_eq_none_iff (f := f), ← map_records_updateRecord?,
    Option.map_eq_none_iff]

/-- What is changed has been found. -/
theorem isNone_findRecord?_of_updateRecord? {id : String} {f : Record → Record}
    {ctx ctx' : Context} (h : ctx.updateRecord? id f = some ctx') :
    (ctx.findRecord? id).isNone = false := by
  rw [Option.isNone_eq_false_iff, Option.isSome_iff_ne_none, ne_eq,
    ← updateRecord?_eq_none_iff (f := f), h]
  exact Option.some_ne_none ctx'

/-- What is added to the innermost collection does not matter for an id that this collection has
    before, nor for one that is not added. -/
theorem updateRecord?_extend {id : String} {added items : List Item} (outer : List Collection)
    (f : Record → Record)
    (h : Collection.findRecord? id added ≠ none → Collection.findRecord? id items ≠ none) :
    (extend added ⟨items :: outer⟩).updateRecord? id f
      = (updateRecord? id f ⟨items :: outer⟩).map (extend added) := by
  simp only [extend, updateRecord?, updateFirst?, Collection.updateRecord?_append]
  cases hitems : Collection.updateRecord? id f items with
  | some items' => rfl
  | none =>
    have hadded : Collection.updateRecord? id f added = none := by
      rw [Collection.updateRecord?_eq_none_iff] at hitems ⊢
      exact Classical.not_not.1 fun hne => h hne hitems
    rw [hadded]
    cases updateFirst? id f outer <;> rfl

/-- What is added does not matter for an id that it does not have. -/
theorem findRecord?_extend {id : String} {added items : List Item} (outer : List Collection)
    (h : Collection.findRecord? id added = none) :
    (extend added ⟨items :: outer⟩).findRecord? id = findRecord? id ⟨items :: outer⟩ := by
  rw [extend, findRecord?, findRecord?, List.findSome?_cons, List.findSome?_cons,
    Collection.findRecord?_append, h, Option.or_none]

/-- Items can be added all at once or in two parts. -/
theorem extend_append (as bs : List Item) (ctx : Context) :
    extend (as ++ bs) ctx = extend bs (extend as ctx) := by
  obtain ⟨_ | ⟨items, outer⟩⟩ := ctx
  · rfl
  · rw [extend, extend, extend, List.append_assoc]

/-! ## Registering -/

/-- Records that all have ids are registered without fail while there is an innermost collection. -/
theorem registerAll_named {ids : List String} {rs : List Record}
    (h : rs.map Record.id? = ids.map some) (items : Collection) (outer : List Collection) :
    registerAll rs ⟨items :: outer⟩
      = (.ok (ids.map RecordRef.mk), extend (rs.map Item.record) ⟨items :: outer⟩) := by
  induction rs generalizing ids items with
  | nil =>
    obtain rfl : ids = [] := List.map_eq_nil_iff.1 h.symm
    rw [registerAll, List.map_nil, List.map_nil, extend, List.append_nil]
  | cons r rs ih =>
    cases ids with
    | nil => exact absurd h (List.cons_ne_nil _ _)
    | cons id ids =>
      obtain ⟨hid, hids⟩ := List.cons.inj h
      have hregister : register r ⟨items :: outer⟩
          = (.registered ⟨id⟩, ⟨(items ++ [.record r]) :: outer⟩) := by
        rw [register, hid]
        rfl
      rw [registerAll, hregister]
      simp only [ih hids, extend, List.map_cons, List.append_assoc, List.singleton_append]
      rfl

end Context
end GameContent
