import GameContent.Proofs.Collection.Search

/-!
# `Proofs.Collection.Patching` — search and change meet at one place

Looking an id up and changing the record that has it are two walks through nested collections. Both
stop at the same place: a `Gap` is a collection with one record taken out, and each record of the
depth-first list stands in one (`Collection.exists_gap`). Neither walk looks at what a record is
beyond its id, so the gap is the same for every change, and all that is around it stays
(`Gap.updateRecord?_fill`).

## Contents
- **Gaps.** What a filled gap is in terms of `records` and `outline`.
- **Walks.** What search and change do in a filled gap.
- **One place.** `search_meets_change`, for collections and for contexts.
-/

namespace GameContent

/-- The record with its properties changed. -/
def Record.changeProperties (change : Properties → Properties) (r : Record) : Record :=
  { r with properties := change r.properties }

@[simp] theorem Record.id?_changeProperties (change : Properties → Properties) (r : Record) :
    (r.changeProperties change).id? = r.id? := rfl

/-! ## Gaps -/

/-- A collection with one of its records taken out. -/
inductive Gap where
  /-- The record is missing among the items of the collection itself. -/
  | here (left right : List Item)
  /-- It is missing in a nested collection. -/
  | inside (left : List Item) (gap : Gap) (right : List Item)

namespace Gap

/-- The collection with a record put into the gap. -/
def fill (r : Record) : Gap → Collection
  | here left right => left ++ .record r :: right
  | inside left gap right => left ++ .collection (gap.fill r) :: right

/-- The records in front of the gap, depth-first. -/
def before : Gap → List Record
  | here left _ => Collection.records left
  | inside left gap _ => Collection.records left ++ gap.before

/-- The records behind the gap, depth-first. -/
def after : Gap → List Record
  | here _ right => Collection.records right
  | inside _ gap right => gap.after ++ Collection.records right

/-- The gap with one more item in front of everything. -/
def cons (item : Item) : Gap → Gap
  | here left right => here (item :: left) right
  | inside left gap right => inside (item :: left) gap right

theorem fill_cons (item : Item) (r : Record) (g : Gap) :
    (g.cons item).fill r = item :: g.fill r := by
  cases g <;> rfl

theorem before_cons (item : Item) (g : Gap) : (g.cons item).before = item.records ++ g.before := by
  cases g with
  | here left right => rfl
  | inside left gap right =>
    rw [cons, before, before, Collection.records, List.append_assoc]

theorem after_cons (item : Item) (g : Gap) : (g.cons item).after = g.after := by
  cases g <;> rfl

end Gap

theorem Collection.records_append (as bs : List Item) :
    Collection.records (as ++ bs) = Collection.records as ++ Collection.records bs := by
  induction as with
  | nil => rfl
  | cons a as ih =>
    rw [List.cons_append, Collection.records, Collection.records, ih, List.append_assoc]

theorem Collection.outline_append (as bs : List Item) :
    Collection.outline (as ++ bs) = Collection.outline as ++ Collection.outline bs := by
  induction as with
  | nil => rfl
  | cons a as ih =>
    rw [List.cons_append, Collection.outline, Collection.outline, ih, List.cons_append]

namespace Gap

theorem records_fill (r : Record) (g : Gap) :
    Collection.records (g.fill r) = g.before ++ r :: g.after := by
  induction g with
  | here left right =>
    rw [fill, Collection.records_append, Collection.records, Item.records, List.singleton_append]
    rfl
  | inside left gap right ih =>
    rw [fill, Collection.records_append, Collection.records, Item.records, ih, before, after]
    simp only [List.append_assoc, List.cons_append]

/-- Which record is in the gap does not show in the outline. -/
theorem outline_fill (r s : Record) (g : Gap) :
    Collection.outline (g.fill r) = Collection.outline (g.fill s) := by
  induction g with
  | here left right =>
    rw [fill, fill, Collection.outline_append, Collection.outline_append]
    rfl
  | inside left gap right ih =>
    rw [fill, fill, Collection.outline_append, Collection.outline_append, Collection.outline,
      Collection.outline, Item.outline, Item.outline, ih]

end Gap

mutual

/-- A record of an item is the item or stands in a gap of it. -/
theorem Item.exists_gap : ∀ {item : Item} {front back : List Record} {r : Record},
    item.records = front ++ r :: back →
      (item = .record r ∧ front = [] ∧ back = []) ∨
        ∃ g : Gap, item = .collection (g.fill r) ∧ g.before = front ∧ g.after = back
  | .record s, front, back, r, h => by
    obtain ⟨rfl, hr, rfl⟩ : front = [] ∧ s = r ∧ back = [] := by
      cases front with
      | nil => simpa [Item.records, eq_comm] using h
      | cons t front => simp [Item.records] at h
    exact .inl ⟨congrArg Item.record hr, rfl, rfl⟩
  | .comment _, _, _, _, h => absurd h (by simp [Item.records])
  | .collection items, front, back, r, h => by
    obtain ⟨g, rfl, hbefore, hafter⟩ := Collection.exists_gap h
    exact .inr ⟨g, rfl, hbefore, hafter⟩

/-- **Each record of the depth-first list stands in a gap of the collection.** -/
theorem Collection.exists_gap : ∀ {items : List Item} {front back : List Record} {r : Record},
    Collection.records items = front ++ r :: back →
      ∃ g : Gap, items = g.fill r ∧ g.before = front ∧ g.after = back
  | [], _, _, _, h => absurd h (by simp [Collection.records])
  | item :: items, front, back, r, h => by
    rw [Collection.records] at h
    rcases List.append_eq_append_iff.1 h with ⟨front', rfl, hitems⟩ | ⟨rest, hitem, hrest⟩
    · obtain ⟨g, rfl, rfl, hafter⟩ := Collection.exists_gap hitems
      refine ⟨g.cons item, (g.fill_cons item r).symm, g.before_cons item, ?_⟩
      rw [g.after_cons, hafter]
    · rcases List.cons_eq_append_iff.1 hrest with ⟨rfl, hitems⟩ | ⟨back', rfl, rfl⟩
      · -- The record is the first one behind the item.
        have hnext : Collection.records items = [] ++ r :: back := hitems
        obtain ⟨g, rfl, hbefore, hafter⟩ := Collection.exists_gap hnext
        refine ⟨g.cons item, (g.fill_cons item r).symm, ?_, by rw [g.after_cons, hafter]⟩
        rw [g.before_cons, hbefore, hitem, List.append_nil, List.append_nil]
      · rcases Item.exists_gap hitem with ⟨rfl, rfl, rfl⟩ | ⟨g, rfl, rfl, rfl⟩
        · exact ⟨.here [] items, rfl, rfl, rfl⟩
        · exact ⟨.inside [] g items, rfl, rfl, rfl⟩

end

/-! ## Walks -/

namespace Gap

variable {id : String} {r : Record} {g : Gap}

/-- A record with the id in the gap is found if no record in front of it has the id. -/
theorem findRecord?_fill (hown : r.id? = some id) (hfirst : ∀ s ∈ g.before, s.id? ≠ some id) :
    Collection.findRecord? id (g.fill r) = some r := by
  have hbefore : g.before.find? (Record.hasId id) = none := by
    simpa [List.find?_eq_none] using hfirst
  rw [Collection.findRecord?_eq, records_fill, List.find?_append, hbefore, Option.none_or,
    List.find?_cons_of_pos (Record.hasId_iff.2 hown)]

/-- A record with another id in the gap is passed over. -/
theorem findRecord?_fill_of_ne (hown : r.id? ≠ some id) :
    Collection.findRecord? id (g.fill r) = (g.before ++ g.after).find? (Record.hasId id) := by
  have hskip : ¬r.hasId id = true := fun h => hown (Record.hasId_iff.1 h)
  rw [Collection.findRecord?_eq, records_fill, List.find?_append, List.find?_append,
    List.find?_cons_of_neg hskip]

/-- **What a change does in a gap.** The record there is changed, and all that is around it
    stays. -/
theorem updateRecord?_fill (hown : r.id? = some id) (hfirst : ∀ s ∈ g.before, s.id? ≠ some id)
    (f : Record → Record) :
    Collection.updateRecord? id f (g.fill r) = some (g.fill (f r)) := by
  have hnone : ∀ left, (∀ s ∈ Collection.records left, s.id? ≠ some id) →
      Collection.updateRecord? id f left = none := by
    intro left hleft
    rw [Collection.updateRecord?_eq_none_iff, Collection.findRecord?_eq]
    simpa [List.find?_eq_none] using hleft
  induction g with
  | here left right =>
    rw [fill, Collection.updateRecord?_append, hnone left hfirst, Collection.updateRecord?,
      Item.updateRecord?, if_pos hown]
    rfl
  | inside left gap right ih =>
    obtain ⟨hleft, hgap⟩ := List.forall_mem_append.1 hfirst
    rw [fill, Collection.updateRecord?_append, hnone left hleft, Collection.updateRecord?,
      Item.updateRecord?, ih hgap]
    rfl

end Gap

/-! ## One place -/

/-- The gap of the first record with an id, where search and change meet. -/
structure Collection.PatchesAt (id : String) (items : Collection) (g : Gap) (r : Record) :
    Prop where
  /-- The record stands in the gap. -/
  stands : items = g.fill r
  /-- So the records of the collection are, depth-first, those in front, this one, and those
      behind. -/
  records : Collection.records items = g.before ++ r :: g.after
  /-- The id is the record's own. -/
  own : r.id? = some id
  /-- It is the first record with this id. -/
  first : ∀ s ∈ g.before, s.id? ≠ some id
  /-- It is found. -/
  found : Collection.findRecord? id items = some r
  /-- Any change reaches it, and all that is around it stays. -/
  changed : ∀ f, Collection.updateRecord? id f items = some (g.fill (f r))
  /-- The outline stays. -/
  outline : ∀ s, Collection.outline (g.fill s) = Collection.outline items
  /-- After a change of its properties the record is found again. -/
  foundAgain : ∀ change,
    Collection.findRecord? id (g.fill (r.changeProperties change))
      = some (r.changeProperties change)
  /-- Under any other id the same is found as before. -/
  others : ∀ change j, j ≠ id →
    Collection.findRecord? j (g.fill (r.changeProperties change)) = Collection.findRecord? j items

/-- The gap of the first record with an id in the active collections. -/
structure Context.PatchesAt (id : String) (ctx : Context) (inner : List Collection)
    (items : Collection) (outer : List Collection) (g : Gap) (r : Record) : Prop where
  /-- The collection is one of the stack. -/
  stack : ctx.stack = inner ++ items :: outer
  /-- No collection further inside has a record with the id. -/
  innermost : ∀ c ∈ inner, Collection.findRecord? id c = none
  /-- The record is the first one of its collection. -/
  here : Collection.PatchesAt id items g r
  /-- It is found in the context. -/
  found : ctx.findRecord? id = some r
  /-- Any change reaches it, and the other collections stay. -/
  changed : ∀ f, ctx.updateRecord? id f = some ⟨inner ++ g.fill (f r) :: outer⟩

theorem Collection.exists_patchesAt {id : String} {items : Collection} {r : Record}
    (h : Collection.findRecord? id items = some r) : ∃ g, Collection.PatchesAt id items g r := by
  rw [Collection.findRecord?_eq] at h
  obtain ⟨hown, front, back, hrecords, hfront⟩ := List.find?_eq_some_iff_append.1 h
  obtain ⟨g, rfl, rfl, rfl⟩ := Collection.exists_gap hrecords
  rw [Record.hasId_iff] at hown
  have hfirst : ∀ s ∈ g.before, s.id? ≠ some id := by
    intro s hs hid
    simpa [Record.hasId_iff.2 hid] using hfront s hs
  have hchanged : ∀ change, (r.changeProperties change).id? = some id := fun change => by
    rw [Record.id?_changeProperties, hown]
  refine ⟨g, rfl, hrecords, hown, hfirst, Gap.findRecord?_fill hown hfirst,
    Gap.updateRecord?_fill hown hfirst, fun s => g.outline_fill s r,
    fun change => Gap.findRecord?_fill (hchanged change) hfirst, ?_⟩
  intro change j hj
  have hne : some id ≠ some j := fun he => hj (Option.some.inj he).symm
  rw [Gap.findRecord?_fill_of_ne (hown ▸ hne), Gap.findRecord?_fill_of_ne (hchanged change ▸ hne)]

/-- A change reaches the innermost collection that it can be made in. -/
theorem Context.updateRecord?_of_innermost {id : String} {f : Record → Record}
    {inner : List Collection} {items changed : Collection} (outer : List Collection)
    (hinner : ∀ c ∈ inner, Collection.updateRecord? id f c = none)
    (hitems : Collection.updateRecord? id f items = some changed) :
    updateRecord? id f ⟨inner ++ items :: outer⟩ = some ⟨inner ++ changed :: outer⟩ := by
  induction inner with
  | nil =>
    rw [List.nil_append, updateRecord?, updateFirst?, hitems]
    rfl
  | cons c inner ih =>
    obtain ⟨hc, hinner⟩ := List.forall_mem_cons.1 hinner
    obtain ⟨stack, hstack, he⟩ := Option.map_eq_some_iff.1 (ih hinner)
    obtain rfl : stack = inner ++ changed :: outer := Context.mk.inj he
    rw [List.cons_append, updateRecord?, updateFirst?, hc]
    simp only [hstack]
    rfl

theorem Context.exists_patchesAt {id : String} {ctx : Context} {r : Record}
    (h : ctx.findRecord? id = some r) :
    ∃ inner items outer g, Context.PatchesAt id ctx inner items outer g r := by
  obtain ⟨stack⟩ := ctx
  obtain ⟨inner, items, outer, rfl, hitems, hinner⟩ := List.findSome?_eq_some_iff.1 h
  obtain ⟨g, hg⟩ := Collection.exists_patchesAt hitems
  refine ⟨inner, items, outer, g, rfl, hinner, hg, h, fun f => ?_⟩
  exact updateRecord?_of_innermost outer
    (fun c hc => Collection.updateRecord?_eq_none_iff.2 (hinner c hc)) (hg.changed f)

/-- **Search and change.** Under any id, a collection either has no record at all, or there is one
    gap in which search finds the first record with this id and which every change fills anew. For
    the active collections of a context that gap is in the innermost collection that has one. -/
theorem search_meets_change (id : String) :
    (∀ items : Collection,
      ((∀ r ∈ Collection.records items, r.id? ≠ some id)
          ∧ Collection.findRecord? id items = none
          ∧ ∀ f, Collection.updateRecord? id f items = none)
        ∨ ∃ g r, Collection.PatchesAt id items g r)
    ∧ ∀ ctx : Context,
      ((∀ items ∈ ctx.stack, Collection.findRecord? id items = none)
          ∧ ctx.findRecord? id = none
          ∧ ∀ f, ctx.updateRecord? id f = none)
        ∨ ∃ inner items outer g r, Context.PatchesAt id ctx inner items outer g r := by
  refine ⟨fun items => ?_, fun ctx => ?_⟩
  · cases hfind : Collection.findRecord? id items with
    | none =>
      refine .inl ⟨?_, rfl, fun f => Collection.updateRecord?_eq_none_iff.2 hfind⟩
      rw [Collection.findRecord?_eq] at hfind
      simpa [List.find?_eq_none] using hfind
    | some r =>
      obtain ⟨g, hg⟩ := Collection.exists_patchesAt hfind
      exact .inr ⟨g, r, hg⟩
  · cases hfind : ctx.findRecord? id with
    | none =>
      exact .inl ⟨List.findSome?_eq_none_iff.1 hfind, rfl,
        fun f => Context.updateRecord?_eq_none_iff.2 hfind⟩
    | some r =>
      obtain ⟨inner, items, outer, g, hg⟩ := Context.exists_patchesAt hfind
      exact .inr ⟨inner, items, outer, g, r, hg⟩

end GameContent
