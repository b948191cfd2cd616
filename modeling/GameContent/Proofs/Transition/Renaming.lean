import GameContent.Proofs.Transition.WaitingReactions

/-!
# `Proofs.Transition.Renaming` — compiling does not depend on the ids of states

If the states of a graph get other ids, all different again, then the items of the renamed graph are
the items of the graph with their ids renamed (`Renamed.compileRecords`). Which transitions count
depends only on which of them lead to the same state, and that does not change.

## Contents
- `rename` for identities, texts, transitions and records.
- `Graph.Renamed` relates a graph to a renamed one, view by view.
- `Renamed.map_toMove_outgoing`, `Renamed.itemOf` and `Renamed.compileRecords`: the transitions out
  of a state, its item, and all items.
-/

namespace GameContent
open Expansion

/-! ## Renaming -/

/-- A text under another name. Other values stay as they are. -/
def Value.rename (name : String → String) : Value → Value
  | .str s => .str (name s)
  | v => v

/-- An id under another name. -/
def Identity.rename (name : String → String) : Identity → Identity
  | .named id => .named (name id)
  | i => i

/-- A transition between renamed states. -/
def Expansion.Move.rename (name : String → String) (m : Move) : Move :=
  ⟨name m.head, name m.tail, m.transition⟩

namespace Record

/-- A reaction that leads to a renamed state. -/
def renameTarget (name : String → String) (r : Record) : Record :=
  { r with properties := r.properties.modify "newID" (Value.rename name) }

/-- An item under another name. Its reactions lead to renamed states, and if it is one of the given
    clones, what it clones is renamed as well. -/
def rename (name : String → String) (clones : List String) (r : Record) : Record where
  typeName := r.typeName
  identity := r.identity.rename name
  properties :=
    if r.id? ∈ clones.map some then r.properties.modify "cloneFrom" (Value.rename name)
    else r.properties
  subrecords := r.subrecords.map (renameTarget name)

theorem id?_rename (name : String → String) (clones : List String) (r : Record) :
    (r.rename name clones).id? = r.id?.map name := by
  unfold id? rename
  cases r.identity <;> rfl

/-- The ids of the items of a graph. -/
def ids (rs : List Record) : Set String :=
  {id | some id ∈ rs.map id?}

theorem ids_map_rename (name : String → String) (clones : List String) (rs : List Record) :
    ids (rs.map (rename name clones)) = name '' ids rs := by
  ext id
  constructor
  · intro h
    obtain ⟨_, hrenamed, hid⟩ := List.mem_map.1 h
    obtain ⟨r, hr, rfl⟩ := List.mem_map.1 hrenamed
    rw [id?_rename] at hid
    obtain ⟨k, hk, rfl⟩ := Option.map_eq_some_iff.1 hid
    exact ⟨k, List.mem_map.2 ⟨r, hr, hk⟩, rfl⟩
  · rintro ⟨k, hk, rfl⟩
    obtain ⟨r, hr, hid⟩ := List.mem_map.1 hk
    refine List.mem_map.2 ⟨_, List.mem_map_of_mem hr, ?_⟩
    rw [id?_rename, hid, Option.map_some]

end Record

/-- Whether the second graph is the first one with its states renamed. The given clones name a state
    that they clone, which is renamed as well. -/
structure Graph.Renamed (name : String → String) (clones : List String) (g g' : Graph) : Prop where
  /-- Different states get different names. -/
  injOn : Set.InjOn name {id | id ∈ g.ids}
  /-- The states come in the same order. -/
  ids : g'.ids = g.ids.map name
  /-- So do the transitions, with the attributes that they had. -/
  moves : g'.edges.map Edge.toMove = (g.edges.map Edge.toMove).map (Move.rename name)
  /-- The states have the properties that they had, but clones clone a renamed state. -/
  properties : ∀ id ∈ g.ids, g'.properties? (name id) = (g.properties? id).map fun p =>
    if id ∈ clones then p.modify "cloneFrom" (Value.rename name) else p

/-! ## Items -/

/-- The item of a state, said of the transitions out of the state without their places. -/
theorem Graph.itemOf_eq (g : Graph) (id : String) :
    g.itemOf id = ⟨"ItemType", .named id,
      ((g.properties? id).getD ∅).normalizeList ItemType.flagsKey,
      (firstOccurrences Move.tail [] ((g.outgoing id).map Edge.toMove)).map Move.reaction⟩ := by
  rw [← properties_itemOf, ← subrecords_itemOf_eq]
  rfl

theorem reaction_rename (name : String → String) (m : Move) :
    (m.rename name).reaction = m.reaction.renameTarget name := by
  have hproperties : (m.rename name).reaction.properties
      = m.reaction.properties.modify "newID" (Value.rename name) := by
    refine Properties.ext ?_
    show _ = m.reaction.properties.entries.map _
    unfold Move.reaction
    rw [Graph.entries_reaction, Graph.entries_reaction]
    rfl
  unfold Record.renameTarget
  rw [← hproperties]
  rfl

namespace Graph.Renamed

variable {name : String → String} {clones : List String} {g g' : Graph} {id sentinel : String}

/-- The transitions out of a renamed state. -/
theorem map_toMove_outgoing (h : g.Renamed name clones g') (hid : id ∈ g.ids) :
    (g'.outgoing (name id)).map Edge.toMove
      = ((g.outgoing id).map Edge.toMove).map (Move.rename name) := by
  have hviews : ∀ (k : Graph) (head : String), (k.outgoing head).map Edge.toMove
      = (k.edges.map Edge.toMove).filter fun m => m.head = head := by
    intro k head
    rw [List.filter_map]
    rfl
  rw [hviews, hviews, h.moves, List.filter_map]
  refine congrArg _ (List.filter_congr fun m hm => ?_)
  obtain ⟨e, he, rfl⟩ := List.mem_map.1 hm
  have hhead : e.head ∈ g.ids := head_mem_ids he
  rw [Function.comp_apply, decide_eq_decide]
  show name e.head = name id ↔ e.head = id
  constructor
  · intro heq
    exact h.injOn hhead hid heq
  · intro heq
    exact congrArg name heq

/-- **One item.** The item of a renamed state is the renamed item of the state. -/
theorem itemOf (h : g.Renamed name clones g') (hid : id ∈ g.ids) :
    g'.itemOf (name id) = (g.itemOf id).rename name clones := by
  have hreactions : (firstOccurrences Move.tail [] ((g'.outgoing (name id)).map Edge.toMove)).map
        Move.reaction
      = ((firstOccurrences Move.tail [] ((g.outgoing id).map Edge.toMove)).map Move.reaction).map
          (Record.renameTarget name) := by
    have hends : ∀ m ∈ (g.outgoing id).map Edge.toMove, m.tail ∈ {id | id ∈ g.ids} := by
      intro m hm
      obtain ⟨e, he, rfl⟩ := List.mem_map.1 hm
      exact tail_mem_ids (List.mem_filter.1 he).1
    have hkept : (firstOccurrences Move.tail [] ((g.outgoing id).map Edge.toMove)).map
          (Move.rename name)
        = firstOccurrences Move.tail [] (((g.outgoing id).map Edge.toMove).map (Move.rename name)) :=
      map_firstOccurrences_of_injOn h.injOn (fun _ _ => rfl) hends
        fun _ hb => absurd hb List.not_mem_nil
    rw [h.map_toMove_outgoing hid, ← hkept, List.map_map, List.map_map]
    exact List.map_congr_left fun m _ => reaction_rename name m
  have hflags : ItemType.flagsKey ≠ "cloneFrom" := by decide
  have hproperties : ((g'.properties? (name id)).getD ∅).normalizeList ItemType.flagsKey
      = if id ∈ clones then
          (((g.properties? id).getD ∅).normalizeList ItemType.flagsKey).modify "cloneFrom"
            (Value.rename name)
        else ((g.properties? id).getD ∅).normalizeList ItemType.flagsKey := by
    rw [h.properties id hid]
    by_cases hclone : id ∈ clones
    · rw [if_pos hclone]
      simp only [if_pos hclone]
      cases g.properties? id with
      | none => rfl
      | some p => exact Properties.modify_comm hflags.symm _ _ p
    · rw [if_neg hclone]
      simp only [if_neg hclone, Option.map_id']
  have hclones : (g.itemOf id).id? ∈ clones.map some ↔ id ∈ clones := by
    rw [id?_itemOf, List.mem_map_of_injective (Option.some_injective _)]
  unfold Record.rename
  simp only [hclones]
  rw [itemOf_eq, itemOf_eq, hreactions, hproperties]
  rfl

/-- **All items.** The items of a renamed graph are the renamed items of the graph, if no state gets
    the name of the sentinel or loses it. -/
theorem compileRecords (h : g.Renamed name clones g')
    (hsentinel : ∀ id ∈ g.ids, name id = sentinel ↔ id = sentinel) {rs : List Record}
    (hrs : g.compileRecords sentinel = .ok rs) :
    g'.compileRecords sentinel = .ok (rs.map (Record.rename name clones)) := by
  obtain ⟨hdelay, rfl⟩ := compileRecords_eq_ok_iff.1 hrs
  refine compileRecords_eq_ok_iff.2 ⟨?_, ?_⟩
  · intro e' he' hne
    have hm : e'.toMove ∈ (g.edges.map Edge.toMove).map (Move.rename name) :=
      h.moves ▸ List.mem_map_of_mem he'
    rw [List.map_map] at hm
    obtain ⟨e, he, heq⟩ := List.mem_map.1 hm
    have hhead : name e.head = e'.head := congrArg Move.head heq
    have htransition : e.transition = e'.transition := congrArg Move.transition heq
    rw [← htransition]
    apply hdelay e he
    intro hs
    exact hne (hhead ▸ (hsentinel e.head (head_mem_ids he)).2 hs)
  · have hids : g'.ids.filter (· ≠ sentinel) = (g.ids.filter (· ≠ sentinel)).map name := by
      rw [h.ids, List.filter_map]
      refine congrArg _ (List.filter_congr fun id hid => ?_)
      rw [Function.comp_apply, decide_eq_decide]
      exact not_congr (hsentinel id hid)
    rw [hids, List.map_map, List.map_map]
    refine List.map_congr_left fun id hid => ?_
    exact (h.itemOf (List.mem_filter.1 hid).1).symm

end Graph.Renamed
end GameContent
