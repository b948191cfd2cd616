import GameContent.Proofs.FirstOccurrences
import GameContent.Proofs.Success
import GameContent.Proofs.Transition.Operations
import GameContent.Transition.Compilation

/-!
# `Proofs.Transition.Compilation` — the items that a graph becomes

Compiling succeeds when no transition is left to expand, and then every state but the sentinel has
become the item `itemOf` (`compileRecords_eq_ok_iff`). The reactions of an item come from the
transitions out of its state, of those to one target the first only (`subrecords_itemOf`).
-/

namespace GameContent
namespace Graph

variable {g : Graph} {id sentinel : String}

/-- A reaction to a trigger: what the item turns into, what it spawns and what it does. -/
def reaction (trigger : Trigger) (target : String) (spawn : Value) (action : Option String) :
    Record where
  typeName := "ItemReaction"
  identity := .inherited
  properties := .ofList
    [("element", trigger.name), ("newID", target), ("spawnItem", spawn),
      ("action", .ofOption .str action)]
  subrecords := []

theorem reactionOf_eq (e : Edge) :
    reactionOf e = reaction e.transition.trigger e.tail (e.transition.spawn.getD .null)
      e.transition.action := rfl

theorem entries_reaction (trigger : Trigger) (target : String) (spawn : Value)
    (action : Option String) :
    (reaction trigger target spawn action).properties.entries
      = [("element", .str trigger.name), ("newID", .str target), ("spawnItem", spawn),
        ("action", .ofOption .str action)] :=
  Properties.entries_ofList (show ["element", "newID", "spawnItem", "action"].Nodup by decide)

theorem firstPerTail_eq (seen : List String) (es : List Edge) :
    firstPerTail seen es = firstOccurrences Edge.tail seen es := by
  induction es generalizing seen with
  | nil => rfl
  | cons e es ih => rw [firstPerTail, firstOccurrences, ih, ih]

/-! ## One item -/

@[simp] theorem id?_itemOf (g : Graph) (id : String) : (g.itemOf id).id? = some id := rfl

/-- An item has the properties of its state, with its flags in list shape. -/
theorem properties_itemOf (g : Graph) (id : String) :
    (g.itemOf id).properties
      = ((g.properties? id).getD ∅).normalizeList ItemType.flagsKey := by
  show ((∅ : Properties).extend ((g.properties? id).getD ∅)).normalizeList _ = _
  rw [Properties.empty_extend]

/-- The reactions of an item come from the transitions out of its state. A transition does not count
    if one before it leads to the same state. -/
theorem subrecords_itemOf (g : Graph) (id : String) :
    (g.itemOf id).subrecords
      = (firstOccurrences Edge.tail [] (g.outgoing id)).map reactionOf := by
  rw [← firstPerTail_eq]
  rfl

/-! ## All items -/

theorem compileNode_eq_ok_iff {r : Record} :
    g.compileNode id = .ok r
      ↔ (∀ e ∈ g.outgoing id, e.transition.delay = none) ∧ r = g.itemOf id := by
  have hnone : (g.outgoing id).findSome? (fun e => e.transition.delay.map (e, ·)) = none
      ↔ ∀ e ∈ g.outgoing id, e.transition.delay = none := by
    simp only [List.findSome?_eq_none_iff, Option.map_eq_none_iff]
  rw [compileNode, ← hnone]
  cases (g.outgoing id).findSome? fun e => e.transition.delay.map (e, ·) with
  | none => simp [eq_comm]
  | some first => simp

theorem compileNodes_eq_ok_iff {ids : List String} {rs : List Record} :
    g.compileNodes ids = .ok rs
      ↔ (∀ id ∈ ids, ∀ e ∈ g.outgoing id, e.transition.delay = none) ∧ rs = ids.map g.itemOf := by
  induction ids generalizing rs with
  | nil => simp [compileNodes, eq_comm]
  | cons id ids ih =>
    simp only [compileNodes, bind_eq_ok_iff, pure_eq_ok_iff, compileNode_eq_ok_iff, ih,
      List.forall_mem_cons, List.map_cons]
    constructor
    · rintro ⟨_, ⟨hid, rfl⟩, _, ⟨hids, rfl⟩, rfl⟩
      exact ⟨⟨hid, hids⟩, rfl⟩
    · rintro ⟨⟨hid, hids⟩, rfl⟩
      exact ⟨_, ⟨hid, rfl⟩, _, ⟨hids, rfl⟩, rfl⟩

/-- **Compiling** succeeds when no transition out of a state but the sentinel is delayed. -/
theorem compileRecords_eq_ok_iff {rs : List Record} :
    g.compileRecords sentinel = .ok rs
      ↔ (∀ e ∈ g.edges, e.head ≠ sentinel → e.transition.delay = none)
        ∧ rs = (g.ids.filter (· ≠ sentinel)).map g.itemOf := by
  rw [compileRecords, compileNodes_eq_ok_iff]
  refine and_congr_left fun _ => ?_
  constructor
  · intro h e he hne
    refine h e.head (List.mem_filter.2 ⟨head_mem_ids he, by simpa using hne⟩) e ?_
    exact List.mem_filter.2 ⟨he, by simp⟩
  · intro h id hid e hout
    obtain ⟨he, hhead⟩ := List.mem_filter.1 hout
    obtain rfl : e.head = id := by simpa using hhead
    exact h e he (by simpa using (List.mem_filter.1 hid).2)

/-- Every state but the sentinel has become exactly one item. -/
theorem filter_items_eq_singleton (hid : id ∈ g.ids) (hne : id ≠ sentinel) :
    ((g.ids.filter (· ≠ sentinel)).map g.itemOf).filter (fun r => r.id? = some id)
      = [g.itemOf id] := by
  have htest : ((fun r => decide (r.id? = some id)) ∘ g.itemOf) = fun k => k == id := by
    funext k
    rw [Bool.eq_iff_iff]
    simp
  have hmem : id ∈ g.ids.filter (· ≠ sentinel) := List.mem_filter.2 ⟨hid, by simpa using hne⟩
  have hnodup : (g.ids.filter (· ≠ sentinel)).Nodup := List.Nodup.filter _ g.ids_nodup
  rw [List.filter_map, htest, List.filter_beq, List.count_eq_one_of_mem hnodup hmem]
  rfl

end Graph
end GameContent
