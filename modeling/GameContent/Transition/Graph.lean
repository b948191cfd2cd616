import GameContent.Properties
import GameContent.Transition.Basic

/-!
# `Transition.Graph` — states and the transitions between them

A graph has states, which are ids with an optional property bag, and any number of transitions
between them. Both are kept in the order in which they were added; a state is also added when a
transition mentions it.

Every transition occupies a slot. A transition that is removed frees its slot, and the next one to
be added takes the slot that was freed last. Slots identify transitions and give the order in which
they are drawn.

## Contents
- **Invariants.** `ids_nodup`, `endpoints` and `slots_perm` are fields of `Graph`.
- **Operations.** `addNode`, `setProperties`, `addTransition`, `removeTransition`.
- **Views.** `ids`, `properties?`, `edges`, `outgoing`.
-/

namespace GameContent

/-- A state. -/
structure Node where
  /-- The id of the state. -/
  id : String
  /-- The properties of the state, if any were set. -/
  properties : Option Properties

/-- A transition in its place. -/
structure Edge where
  /-- The id of the state it leaves. -/
  head : String
  /-- The id of the state it leads to. -/
  tail : String
  /-- Its attributes. -/
  transition : Transition
  /-- The slot it occupies. -/
  slot : Nat

/-- A directed multigraph of states and transitions. -/
structure Graph where
  /-- The states in the order in which they were added. -/
  nodes : List Node
  /-- The transitions in the order in which they were added. -/
  edges : List Edge
  /-- The free slots, the one that was freed last in front. -/
  freed : List Nat
  /-- The number of slots that were ever in use. -/
  slots : Nat
  /-- No two states have the same id. -/
  ids_nodup : (nodes.map Node.id).Nodup
  /-- The ends of every transition are states of the graph. -/
  endpoints : ∀ e ∈ edges, e.head ∈ nodes.map Node.id ∧ e.tail ∈ nodes.map Node.id
  /-- Every slot is occupied once or free once. -/
  slots_perm : (edges.map Edge.slot ++ freed).Perm (List.range slots)

namespace Graph

/-- The graph without states. -/
def empty : Graph where
  nodes := []
  edges := []
  freed := []
  slots := 0
  ids_nodup := List.nodup_nil
  endpoints := by simp
  slots_perm := by simp

instance : EmptyCollection Graph := ⟨empty⟩

instance : Inhabited Graph := ⟨empty⟩

/-! ## Views -/

/-- The ids of the states in the order in which they were added. -/
def ids (g : Graph) : List String :=
  g.nodes.map Node.id

/-- The state with an id. -/
def node? (g : Graph) (id : String) : Option Node :=
  g.nodes.find? fun n => n.id = id

/-- Whether the graph has a state with the id. -/
def contains (g : Graph) (id : String) : Bool :=
  id ∈ g.ids

/-- The position of a state among the states. -/
def position (g : Graph) (id : String) : Nat :=
  g.ids.idxOf id

/-- The properties of a state, if any were set. -/
def properties? (g : Graph) (id : String) : Option Properties :=
  (g.node? id).bind Node.properties

/-- The transitions that leave a state, in the order in which they were added. -/
def outgoing (g : Graph) (id : String) : List Edge :=
  g.edges.filter fun e => e.head = id

/-- Whether no transition takes more than one day. -/
def isExpanded (g : Graph) : Bool :=
  g.edges.all fun e => e.transition.delay.isNone

/-! ## Operations -/

/-- Adds a state. A state that is there already stays as it is. -/
def addNode (id : String) (g : Graph) : Graph :=
  if h : id ∈ g.ids then g
  else { g with
    nodes := g.nodes ++ [⟨id, none⟩]
    ids_nodup := by
      rw [List.map_append, List.map_singleton]
      exact List.nodup_append.2 ⟨g.ids_nodup, by simp, by
        intro a ha b hb he
        have hid : a = id := he.trans (List.mem_singleton.1 hb)
        exact h (hid ▸ ha)⟩
    endpoints := by
      intro e he
      rw [List.map_append]
      exact ⟨List.mem_append_left _ (g.endpoints e he).1,
        List.mem_append_left _ (g.endpoints e he).2⟩ }

/-- A node with its properties changed if it has the id. -/
def modifyNode (id : String) (f : Option Properties → Option Properties) (n : Node) : Node :=
  if n.id = id then { n with properties := f n.properties } else n

@[simp] theorem id_modifyNode (id : String) (f : Option Properties → Option Properties)
    (n : Node) : (modifyNode id f n).id = n.id := by
  unfold modifyNode
  split <;> rfl

theorem map_id_modifyNode (id : String) (f : Option Properties → Option Properties)
    (ns : List Node) : (ns.map (modifyNode id f)).map Node.id = ns.map Node.id := by
  simp [Function.comp_def]

/-- Changes the properties of a state, if there is one with the id. -/
def modifyProperties (id : String) (f : Option Properties → Option Properties) (g : Graph) :
    Graph :=
  { g with
    nodes := g.nodes.map (modifyNode id f)
    ids_nodup := by
      rw [map_id_modifyNode]
      exact g.ids_nodup
    endpoints := by
      rw [map_id_modifyNode]
      exact g.endpoints }

/-- Replaces the properties of a state, which is added if it is new. -/
def setProperties (id : String) (p : Properties) (g : Graph) : Graph :=
  (g.addNode id).modifyProperties id fun _ => some p

/-- The slot that the next transition takes. -/
def nextSlot (g : Graph) : Nat :=
  g.freed.headD g.slots

theorem mem_ids_addNode_self (id : String) (g : Graph) : id ∈ (g.addNode id).ids := by
  unfold addNode
  split
  · assumption
  · simp [ids]

theorem mem_ids_addNode {id k : String} {g : Graph} (h : k ∈ g.ids) : k ∈ (g.addNode id).ids := by
  unfold addNode
  split
  · exact h
  · simp only [ids, List.map_append]
    exact List.mem_append_left _ h

/-- Connects two states of the graph. -/
def connect (head tail : String) (t : Transition) (g : Graph) (hh : head ∈ g.ids)
    (ht : tail ∈ g.ids) : Graph :=
  { g with
    edges := g.edges ++ [⟨head, tail, t, g.nextSlot⟩]
    freed := g.freed.tail
    slots := if g.freed.isEmpty then g.slots + 1 else g.slots
    endpoints := by
      intro e he
      rcases List.mem_append.1 he with h | h
      · exact g.endpoints e h
      · rw [List.mem_singleton.1 h]
        exact ⟨hh, ht⟩
    slots_perm := by
      have hp := g.slots_perm
      unfold nextSlot
      cases hf : g.freed with
      | nil =>
        rw [hf, List.append_nil] at hp
        simp only [List.map_append, List.map_cons, List.map_nil, List.headD_nil, List.tail_nil,
          List.append_nil, List.isEmpty_nil, if_true, List.range_succ]
        exact hp.append_right _
      | cons s freed =>
        rw [hf] at hp
        simpa [List.append_assoc] using hp }

/-- Adds a transition between two states, which are added if they are new. -/
def addTransition (head tail : String) (t : Transition) (g : Graph) : Graph :=
  ((g.addNode head).addNode tail).connect head tail t
    (mem_ids_addNode (mem_ids_addNode_self head g)) (mem_ids_addNode_self tail _)

/-- The transitions without the one that occupies a slot. -/
def withoutSlot (slot : Nat) (edges : List Edge) : List Edge :=
  edges.filter fun e => e.slot ≠ slot

/-- Moving a slot that occurs once from the occupied ones to the free ones keeps all slots. -/
theorem perm_withoutSlot {edges : List Edge} {slot : Nat}
    (hn : (edges.map Edge.slot).Nodup) (hs : slot ∈ edges.map Edge.slot) (freed : List Nat) :
    ((withoutSlot slot edges).map Edge.slot ++ slot :: freed).Perm
      (edges.map Edge.slot ++ freed) := by
  have hmap : (withoutSlot slot edges).map Edge.slot = (edges.map Edge.slot).erase slot := by
    rw [hn.erase_eq_filter, List.filter_map]
    congr 1
    apply List.filter_congr
    intro e _
    by_cases h : e.slot = slot <;> simp [h]
  rw [hmap]
  have hp : (slot :: (edges.map Edge.slot).erase slot).Perm (edges.map Edge.slot) :=
    (List.perm_cons_erase hs).symm
  exact (List.perm_middle).trans (hp.append_right freed)

/-- Removes the transition that occupies a slot, if there is one. Its slot becomes free. -/
def removeTransition (slot : Nat) (g : Graph) : Graph :=
  if h : slot ∈ g.edges.map Edge.slot then
    { g with
      edges := withoutSlot slot g.edges
      freed := slot :: g.freed
      endpoints := fun e he => g.endpoints e (List.mem_filter.1 he).1
      slots_perm :=
        (perm_withoutSlot
          (List.nodup_append.1 ((g.slots_perm.nodup_iff).2 List.nodup_range)).1 h g.freed).trans
          g.slots_perm }
  else g

end Graph
end GameContent
