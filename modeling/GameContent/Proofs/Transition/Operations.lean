import GameContent.Transition.Graph
import Mathlib.Data.List.Nodup
import Mathlib.Data.List.Perm.Basic

/-!
# `Proofs.Transition.Operations` — what each operation does to the views of a graph

A graph is seen through its ids, its properties and its edges. Each operation changes few of them,
and these lemmas say which and how; no later proof opens an operation.

## Contents
- One group of lemmas for `addNode`, `modifyProperties`, `setProperties`, `addTransition` and
  `removeTransition`: first `ids`, then `edges`, then `properties?`.
- `eq_of_slot_eq`: a slot tells its transition.
- `flatMap_outgoing_perm`: listing the transitions state by state reorders them.
-/

namespace GameContent
namespace Graph

variable {g : Graph} {id k : String}

theorem contains_iff : g.contains id = true ↔ id ∈ g.ids := by
  simp [contains]

theorem node?_eq_none_iff : g.node? id = none ↔ id ∉ g.ids := by
  simp [node?, ids, List.find?_eq_none]

theorem head_mem_ids {e : Edge} (h : e ∈ g.edges) : e.head ∈ g.ids :=
  (g.endpoints e h).1

theorem tail_mem_ids {e : Edge} (h : e ∈ g.edges) : e.tail ∈ g.ids :=
  (g.endpoints e h).2

/-- No two transitions are in one slot. -/
theorem slots_nodup (g : Graph) : (g.edges.map Edge.slot).Nodup :=
  (List.nodup_append.1 (g.slots_perm.nodup_iff.2 List.nodup_range)).1

/-- A slot tells its transition. -/
theorem eq_of_slot_eq {e f : Edge} (he : e ∈ g.edges) (hf : f ∈ g.edges) (h : e.slot = f.slot) :
    e = f :=
  List.inj_on_of_nodup_map g.slots_nodup he hf h

theorem edges_nodup (g : Graph) : g.edges.Nodup :=
  g.slots_nodup.of_map _

/-! ## Adding a state -/

theorem addNode_of_mem (h : id ∈ g.ids) : g.addNode id = g :=
  dif_pos h

theorem ids_addNode_of_not_mem (h : id ∉ g.ids) : (g.addNode id).ids = g.ids ++ [id] := by
  rw [addNode, dif_neg h, ids, List.map_append]
  rfl

theorem ids_addNode (k : String) (g : Graph) :
    (g.addNode k).ids = if k ∈ g.ids then g.ids else g.ids ++ [k] := by
  by_cases h : k ∈ g.ids
  · rw [if_pos h, addNode_of_mem h]
  · rw [if_neg h, ids_addNode_of_not_mem h]

theorem position_addNode_of_mem (h : k ∈ g.ids) : (g.addNode id).position k = g.position k := by
  unfold position
  rw [ids_addNode]
  split
  · rfl
  · exact List.idxOf_append_of_mem h

theorem position_addNode_self (h : id ∉ g.ids) :
    (g.addNode id).position id = g.nodes.length := by
  unfold position
  rw [ids_addNode_of_not_mem h, List.idxOf_append_of_notMem h, List.idxOf_cons_self,
    Nat.add_zero]
  exact List.length_map _

@[simp] theorem edges_addNode (id : String) (g : Graph) : (g.addNode id).edges = g.edges := by
  unfold addNode
  split <;> rfl

@[simp] theorem properties?_addNode (id k : String) (g : Graph) :
    (g.addNode id).properties? k = g.properties? k := by
  by_cases h : id ∈ g.ids
  · rw [addNode_of_mem h]
  · rw [addNode, dif_neg h, properties?, properties?, node?, node?, List.find?_append]
    cases hk : g.nodes.find? fun n => n.id = k with
    | some n => rfl
    | none => by_cases he : id = k <;> simp [he]

@[simp] theorem freed_addNode (k : String) (g : Graph) : (g.addNode k).freed = g.freed := by
  unfold addNode
  split <;> rfl

@[simp] theorem slots_addNode (k : String) (g : Graph) : (g.addNode k).slots = g.slots := by
  unfold addNode
  split <;> rfl

theorem nextSlot_addNode (k : String) (g : Graph) : (g.addNode k).nextSlot = g.nextSlot := by
  unfold nextSlot
  rw [freed_addNode, slots_addNode]

/-! ## Changing properties -/

@[simp] theorem ids_modifyProperties (id : String) (f : Option Properties → Option Properties)
    (g : Graph) : (g.modifyProperties id f).ids = g.ids :=
  map_id_modifyNode id f g.nodes

@[simp] theorem edges_modifyProperties (id : String) (f : Option Properties → Option Properties)
    (g : Graph) : (g.modifyProperties id f).edges = g.edges := rfl

theorem node?_modifyProperties (id k : String) (f : Option Properties → Option Properties)
    (g : Graph) : (g.modifyProperties id f).node? k = (g.node? k).map (modifyNode id f) := by
  have hid : (fun n => decide (n.id = k)) ∘ modifyNode id f = fun n => decide (n.id = k) :=
    funext fun n => by rw [Function.comp_apply, id_modifyNode]
  rw [node?, modifyProperties, List.find?_map, hid, node?]

/-- Changing the state with an id is changing the state at its position. -/
theorem map_modifyNode (f : Option Properties → Option Properties) (h : id ∈ g.ids) :
    g.nodes.map (modifyNode id f)
      = g.nodes.modify (g.position id) fun n => { n with properties := f n.properties } := by
  refine List.ext_getElem? fun i => ?_
  rw [List.getElem?_map, List.getElem?_modify]
  cases hn : g.nodes[i]? with
  | none => rfl
  | some n =>
    have hi : g.ids[i]? = some n.id := by
      unfold ids
      rw [List.getElem?_map, hn, Option.map_some]
    have hat : g.ids[g.position id]? = some id := List.getElem?_idxOf h
    -- Ids are distinct, so the id is found at its position only.
    have hiff : n.id = id ↔ g.position id = i := by
      constructor
      · intro he
        rw [he, ← hat] at hi
        exact (List.getElem?_inj (List.idxOf_lt_length_iff.2 h) g.ids_nodup).1 hi.symm
      · intro he
        rw [he, hi] at hat
        exact Option.some.inj hat
    show some (modifyNode id f n) = some (if g.position id = i then _ else n)
    unfold modifyNode
    simp only [hiff]

theorem properties?_modifyProperties_self (f : Option Properties → Option Properties)
    (h : id ∈ g.ids) :
    (g.modifyProperties id f).properties? id = f (g.properties? id) := by
  rw [properties?, properties?, node?_modifyProperties]
  cases hn : g.node? id with
  | none => exact absurd h (node?_eq_none_iff.1 hn)
  | some n =>
    have hid : n.id = id := by simpa using List.find?_some hn
    simp [modifyNode, hid]

theorem properties?_modifyProperties_of_ne (f : Option Properties → Option Properties)
    (h : k ≠ id) : (g.modifyProperties id f).properties? k = g.properties? k := by
  rw [properties?, properties?, node?_modifyProperties]
  cases hn : g.node? k with
  | none => rfl
  | some n =>
    have hid : n.id = k := by simpa using List.find?_some hn
    have hne : ¬n.id = id := by rwa [hid]
    simp [modifyNode, hne]

theorem ids_setProperties_of_mem (p : Properties) (h : id ∈ g.ids) :
    (g.setProperties id p).ids = g.ids := by
  rw [setProperties, ids_modifyProperties, addNode_of_mem h]

@[simp] theorem edges_setProperties (id : String) (p : Properties) (g : Graph) :
    (g.setProperties id p).edges = g.edges := by
  rw [setProperties, edges_modifyProperties, edges_addNode]

theorem properties?_setProperties_of_ne (p : Properties) (h : k ≠ id) :
    (g.setProperties id p).properties? k = g.properties? k := by
  rw [setProperties, properties?_modifyProperties_of_ne _ h, properties?_addNode]

theorem properties?_setProperties_self (id : String) (p : Properties) (g : Graph) :
    (g.setProperties id p).properties? id = some p := by
  rw [setProperties, properties?_modifyProperties_self _ (mem_ids_addNode_self id g)]

/-! ## Adding and removing a transition -/

/-- The slot that the next transition takes is free. -/
theorem nextSlot_not_mem (g : Graph) : g.nextSlot ∉ g.edges.map Edge.slot := by
  intro hm
  have hperm := g.slots_perm
  unfold nextSlot at hm
  cases hf : g.freed with
  | nil =>
    rw [hf, List.headD_nil] at hm
    exact absurd (List.mem_range.1 (hperm.mem_iff.1 (List.mem_append_left _ hm)))
      (Nat.lt_irrefl _)
  | cons slot freed =>
    rw [hf, List.headD_cons] at hm
    have hdisjoint := (List.nodup_append.1 (hperm.nodup_iff.2 List.nodup_range)).2.2
    exact hdisjoint slot hm slot (hf ▸ List.mem_cons_self) rfl

theorem edges_addTransition (head tail : String) (t : Transition) (g : Graph) :
    (g.addTransition head tail t).edges
      = g.edges ++ [⟨head, tail, t, ((g.addNode head).addNode tail).nextSlot⟩] := by
  show ((g.addNode head).addNode tail).edges ++ _ = _
  rw [edges_addNode, edges_addNode]

@[simp] theorem properties?_addTransition (head tail k : String) (t : Transition) (g : Graph) :
    (g.addTransition head tail t).properties? k = g.properties? k :=
  (properties?_addNode tail k _).trans (properties?_addNode head k g)

/-- A transition between states of the graph adds no state. -/
theorem ids_addTransition_of_mem {head tail : String} (t : Transition) (hh : head ∈ g.ids)
    (ht : tail ∈ g.ids) : (g.addTransition head tail t).ids = g.ids := by
  show ((g.addNode head).addNode tail).ids = g.ids
  rw [addNode_of_mem hh, addNode_of_mem ht]

/-- A transition to a new state adds that state. -/
theorem ids_addTransition_of_not_mem {head tail : String} (t : Transition) (hh : head ∈ g.ids)
    (ht : tail ∉ g.ids) : (g.addTransition head tail t).ids = g.ids ++ [tail] := by
  show ((g.addNode head).addNode tail).ids = g.ids ++ [tail]
  rw [addNode_of_mem hh, ids_addNode_of_not_mem ht]

theorem nodes_removeTransition (slot : Nat) (g : Graph) :
    (g.removeTransition slot).nodes = g.nodes := by
  unfold removeTransition
  split <;> rfl

@[simp] theorem ids_removeTransition (slot : Nat) (g : Graph) :
    (g.removeTransition slot).ids = g.ids := by
  rw [ids, nodes_removeTransition, ids]

@[simp] theorem properties?_removeTransition (slot : Nat) (k : String) (g : Graph) :
    (g.removeTransition slot).properties? k = g.properties? k := by
  rw [properties?, node?, nodes_removeTransition, properties?, node?]

theorem edges_removeTransition (slot : Nat) (g : Graph) :
    (g.removeTransition slot).edges = withoutSlot slot g.edges := by
  unfold removeTransition
  split
  · rfl
  · rename_i h
    refine (List.filter_eq_self.2 fun e he => ?_).symm
    have hne : e.slot ≠ slot := fun hs => h (hs ▸ List.mem_map_of_mem he)
    simpa using hne

/-! ## The transitions state by state -/

/-- Listing the transitions state by state reorders them. -/
theorem flatMap_filter_head_perm {ids : List String} (hids : ids.Nodup) {es : List Edge}
    (hes : ∀ e ∈ es, e.head ∈ ids) :
    (ids.flatMap fun id => es.filter fun e => e.head = id).Perm es := by
  induction ids generalizing es with
  | nil =>
    rw [List.eq_nil_iff_forall_not_mem.2 fun e he => absurd (hes e he) List.not_mem_nil]
    exact List.Perm.refl _
  | cons id ids ih =>
    obtain ⟨hid, hids⟩ := List.nodup_cons.1 hids
    -- The other states list the same transitions once those of `id` are taken out.
    have hrest : (ids.flatMap fun k => es.filter fun e => e.head = k)
        = ids.flatMap fun k => (es.filter fun e => !decide (e.head = id)).filter fun e =>
            e.head = k := by
      refine List.flatMap_congr fun k hk => ?_
      rw [List.filter_filter]
      refine List.filter_congr fun e _ => ?_
      by_cases he : e.head = k
      · have hne : ¬e.head = id := fun hc => hid (hc ▸ he ▸ hk)
        simp [he, he ▸ hne]
      · simp [he]
    have hothers : ∀ e ∈ es.filter fun e => !decide (e.head = id), e.head ∈ ids := by
      intro e he
      obtain ⟨hm, hne⟩ := List.mem_filter.1 he
      have hne' : ¬e.head = id := by simpa using hne
      exact (List.mem_cons.1 (hes e hm)).elim (fun hc => absurd hc hne') fun hc => hc
    rw [List.flatMap_cons, hrest]
    exact ((ih hids hothers).append_left _).trans
      (List.filter_append_perm (fun e => decide (e.head = id)) es)

theorem flatMap_outgoing_perm (g : Graph) : (g.ids.flatMap g.outgoing).Perm g.edges :=
  flatMap_filter_head_perm g.ids_nodup fun _ he => head_mem_ids he

end Graph
end GameContent
