import GameContent.Proofs.Transition.Compilation

/-!
# `Proofs.Transition.Items` — compiled items, said from the graph alone

`Graph.IsItemOf` says what the item of a state has to be without saying how it is made: its bag is
that of the state, and it reacts once to each state that transitions lead to, in the order in which
those states were first led to, the way the earliest of these transitions does. What a graph is
compiled to consists of just these items (`compileRecords_exact`).

## Contents
- `Graph.IsEarliest`, `IsReactionTo` and `Graph.IsItemOf` are the specification.
- `isReactionTo_reactionOf` and `forall₂_reactions` are its parts for reactions, `isItemOf_itemOf`
  puts an item together.
-/

namespace GameContent

/-- Whether no transition between the same two states was added before this one. -/
def Graph.IsEarliest (g : Graph) (e : Edge) : Prop :=
  ∃ before after, g.edges = before ++ e :: after
    ∧ ∀ f ∈ before, f.head = e.head → f.tail ≠ e.tail

/-- Whether a record is the reaction that a transition becomes. -/
structure IsReactionTo (e : Edge) (r : Record) : Prop where
  /-- It is the reaction of an item. -/
  typeName : r.typeName = "ItemReaction"
  /-- It goes by the id of the item. -/
  identity : r.identity = .inherited
  /-- It has the attributes of the transition. Those that the transition lacks are null. -/
  entries : r.properties.entries
    = [("element", .str e.transition.trigger.name), ("newID", .str e.tail),
      ("spawnItem", e.transition.spawn.getD .null), ("action", .ofOption .str e.transition.action)]
  /-- It owns nothing. -/
  subrecords : r.subrecords = []

/-- The id of the state that a reaction leads to, as it is written. -/
def Record.newID? (r : Record) : Option Value :=
  r.properties.get? "newID"

theorem IsReactionTo.newID? {e : Edge} {r : Record} (h : IsReactionTo e r) :
    r.newID? = some (.str e.tail) := by
  rw [Record.newID?, Properties.get?, h.entries]
  rfl

namespace Graph

/-- Whether a record is the item that a state becomes. -/
structure IsItemOf (g : Graph) (id : String) (r : Record) : Prop where
  /-- It is an item. -/
  typeName : r.typeName = "ItemType"
  /-- It goes by the id of the state. -/
  identity : r.identity = .named id
  /-- It has the properties of the state, in their order. -/
  keys : r.properties.keys = ((g.properties? id).getD ∅).keys
  /-- They have the values that they have in the state, but the flags are in list shape. -/
  values : ∀ key, r.properties.get? key
    = (((g.properties? id).getD ∅).get? key).map fun v =>
        if key = "special" then .list v.toList else v
  /-- It owns a reaction for each state that transitions lead to, in the order in which those states
      were first led to. The reaction is the one to the earliest of these transitions. -/
  reactions : List.Forall₂
    (fun target s => ∃ e, e.head = id ∧ e.tail = target ∧ g.IsEarliest e ∧ IsReactionTo e s)
    ((g.outgoing id).map Edge.tail).eraseDups r.subrecords
  /-- No state that a transition leads to is missing. -/
  complete : ∀ e ∈ g.edges, e.head = id → some (.str e.tail) ∈ r.subrecords.map Record.newID?
  /-- None is there twice. -/
  distinct : (r.subrecords.map Record.newID?).Nodup

variable {g : Graph} {id sentinel : String}

/-! ## Reactions -/

/-- There is no other earliest transition between the two states: it is the first one. -/
theorem IsEarliest.find?_eq {e : Edge} (h : g.IsEarliest e) :
    g.edges.find? (fun f => f.head = e.head ∧ f.tail = e.tail) = some e := by
  obtain ⟨before, after, hedges, hbefore⟩ := h
  rw [hedges]
  refine List.find?_eq_some_iff_append.2 ⟨by simp, before, after, rfl, ?_⟩
  intro f hf
  rw [Bool.not_eq_true', decide_eq_false_iff_not, not_and]
  exact hbefore f hf

theorem isReactionTo_reactionOf (e : Edge) : IsReactionTo e (reactionOf e) where
  typeName := rfl
  identity := rfl
  entries := entries_reaction _ _ _ _
  subrecords := rfl

/-- The first transition from a state to a target is the earliest one. -/
theorem isEarliest_of_find?_outgoing {target : String} {e : Edge}
    (h : (g.outgoing id).find? (fun f => f.tail = target) = some e) :
    e.head = id ∧ e.tail = target ∧ g.IsEarliest e := by
  rw [outgoing, List.find?_filter] at h
  obtain ⟨hends, before, after, hedges, hbefore⟩ := List.find?_eq_some_iff_append.1 h
  obtain ⟨rfl, rfl⟩ : e.head = id ∧ e.tail = target := by simpa using hends
  refine ⟨rfl, rfl, before, after, hedges, fun f hf hhead htail => ?_⟩
  have hnot := hbefore f hf
  simp [hhead, htail] at hnot

theorem forall₂_reactions (g : Graph) (id : String) :
    List.Forall₂
      (fun target s => ∃ e, e.head = id ∧ e.tail = target ∧ g.IsEarliest e ∧ IsReactionTo e s)
      ((g.outgoing id).map Edge.tail).eraseDups (g.itemOf id).subrecords := by
  rw [subrecords_itemOf, List.forall₂_map_right_iff]
  refine (forall₂_firstOccurrences (g.outgoing id)).imp fun target e hfind => ?_
  obtain ⟨hhead, htail, hearliest⟩ := isEarliest_of_find?_outgoing hfind
  exact ⟨e, hhead, htail, hearliest, isReactionTo_reactionOf e⟩

/-- The states that the reactions of an item lead to. -/
theorem map_newID?_subrecords (g : Graph) (id : String) :
    (g.itemOf id).subrecords.map Record.newID?
      = ((firstOccurrences Edge.tail [] (g.outgoing id)).map Edge.tail).map fun target =>
          some (.str target) := by
  rw [subrecords_itemOf, List.map_map, List.map_map]
  exact List.map_congr_left fun e _ => (isReactionTo_reactionOf e).newID?

/-! ## Items -/

/-- Every state becomes the item that it has to become. -/
theorem isItemOf_itemOf (g : Graph) (id : String) : g.IsItemOf id (g.itemOf id) := by
  refine ⟨rfl, rfl, ?_, fun key => ?_, forall₂_reactions g id, fun e he hhead => ?_, ?_⟩
  · rw [properties_itemOf, Properties.normalizeList, Properties.keys_modify]
  · rw [properties_itemOf, Properties.normalizeList, Properties.get?_modify, ItemType.flagsKey]
    by_cases hkey : key = "special"
    · simp only [if_pos hkey]
    · simp only [if_neg hkey, Option.map_id']
  · rw [map_newID?_subrecords]
    refine List.mem_map_of_mem (mem_map_firstOccurrences.2 ⟨?_, List.not_mem_nil⟩)
    exact List.mem_map_of_mem (List.mem_filter.2 ⟨he, by simpa using hhead⟩)
  · rw [map_newID?_subrecords]
    refine (nodup_map_firstOccurrences _).map fun a b hab => ?_
    exact Value.str.inj (Option.some.inj hab)

/-- **What a graph is compiled to**: one item for each state but the sentinel, in the order of the
    states. -/
theorem compileRecords_exact {rs : List Record} (h : g.compileRecords sentinel = .ok rs) :
    List.Forall₂ g.IsItemOf (g.ids.filter (· ≠ sentinel)) rs := by
  obtain ⟨-, rfl⟩ := compileRecords_eq_ok_iff.1 h
  rw [List.forall₂_map_right_iff, List.forall₂_same]
  exact fun id _ => g.isItemOf_itemOf id

/-- The states of a bush. Its first transition to the fruit was removed, and another one has taken
    the place of that since. -/
def bushGraph : Graph :=
  (((((((∅ : Graph).setProperties "bush" (.ofList [("special", "flammable"), ("name", "Bush")])
    ).addTransition "bush" "fruit" (.on .smash)
    ).addTransition "bush" "X" { Transition.on .slash with action := some "rustle" }
    ).removeTransition 0
    ).addTransition "bush" "fruit" (.on .water)
    ).addTransition "bush" "X" (.on .use)
    ).addTransition "bush" "fruit" (.on .growth)

theorem compileRecords_exact_bushGraph :
    ∃ bush fruit, bushGraph.compileRecords "X" = .ok [bush, fruit]
      ∧ bush.identity = .named "bush" ∧ fruit.identity = .named "fruit"
      ∧ bush.properties.keys = ["special", "name"]
      ∧ bush.properties.get? "special" = some (.list [.str "flammable"])
      ∧ bush.subrecords.map Record.newID? = [some (.str "X"), some (.str "fruit")]
      ∧ bush.subrecords.map (fun s => s.properties.entries)
        = [[("element", .str "slash"), ("newID", .str "X"), ("spawnItem", .null),
            ("action", .str "rustle")],
          [("element", .str "water"), ("newID", .str "fruit"), ("spawnItem", .null),
            ("action", .null)]] := by
  have hok : (bushGraph.compileRecords "X").isOk = true := by decide +kernel
  obtain ⟨rs, h⟩ := exists_eq_ok_of_isOk hok
  have hids : bushGraph.ids.filter (· ≠ "X") = ["bush", "fruit"] := by decide +kernel
  have hitems := compileRecords_exact h
  rw [hids] at hitems
  obtain ⟨bush, _, hbush, hrest, rfl⟩ := List.forall₂_cons_left_iff.1 hitems
  obtain ⟨fruit, _, hfruit, hnil, rfl⟩ := List.forall₂_cons_left_iff.1 hrest
  obtain rfl := List.forall₂_nil_left_iff.1 hnil
  have htargets : ((bushGraph.outgoing "bush").map Edge.tail).eraseDups = ["X", "fruit"] := by
    decide +kernel
  have hreactions := hbush.reactions
  rw [htargets] at hreactions
  obtain ⟨s, _, ⟨e, hhead, htail, hearliest, hs⟩, hlater, hsubs⟩ :=
    List.forall₂_cons_left_iff.1 hreactions
  obtain ⟨t, _, ⟨f, hhead', htail', hearliest', ht⟩, hnil, rfl⟩ :=
    List.forall₂_cons_left_iff.1 hlater
  obtain rfl := List.forall₂_nil_left_iff.1 hnil
  have he := hearliest.find?_eq
  have hf := hearliest'.find?_eq
  rw [hhead, htail] at he
  rw [hhead', htail'] at hf
  obtain rfl := Option.some.inj he
  obtain rfl := Option.some.inj hf
  refine ⟨bush, fruit, h, hbush.identity, hfruit.identity, hbush.keys.trans (by decide +kernel),
    hbush.values "special", ?_, ?_⟩
  · rw [hsubs, List.map_cons, List.map_cons, hs.newID?, ht.newID?]
    rfl
  · rw [hsubs, List.map_cons, List.map_cons, hs.entries, ht.entries]
    rfl

end Graph
end GameContent
