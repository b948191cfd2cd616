import GameContent.Proofs.Transition.History

/-!
# `Proofs.Transition.Storage` — graphs in slots

A graph in memory keeps its states at positions, with an index that finds the position of an id, and
its transitions in slots. The slot that was freed last is used first, so the order of the slots says
nothing about age. Each transition therefore has a stamp, from a clock that every addition advances,
and what is to be listed in the order of adding is collected in some order and sorted by stamp.

`Represents` relates such a store to a graph and to its occupied slots from old to new. Each
operation keeps it, so every history does, and what is read from the store is what the graph says.

## Contents
- `Storage` with its operations and its views; `Shows` compares the views with those of a graph.
- **Step.** `Represents.enter`, `setProperties`, `addTransition` and `removeTransition`.
- **Run.** `Represents.changed` for any history.
- **Views.** `Represents.shows`, and `changed_reports_insertion_order` from the changes alone.
-/

namespace GameContent

/-- A transition in a slot. -/
structure StoredEdge where
  /-- The position of the state it leaves. -/
  head : Nat
  /-- The position of the state it leads to. -/
  tail : Nat
  /-- Its attributes. -/
  transition : Transition
  /-- The time at which it was added. -/
  stamp : Nat

/-- A store of states and transitions. -/
structure Storage where
  /-- The states by position. -/
  nodes : List Node
  /-- The position of each id. -/
  index : List (String × Nat)
  /-- The slots, with what occupies them. -/
  cells : List (Option StoredEdge)
  /-- The free slots, the one that was freed last in front. -/
  freed : List Nat
  /-- The stamp of the next transition. -/
  clock : Nat

namespace Storage

instance : EmptyCollection Storage := ⟨⟨[], [], [], [], 0⟩⟩

/-! ## Operations -/

/-- The position of a state, which is added if it is new. -/
def enter (id : String) (s : Storage) : Nat × Storage :=
  match s.index.lookup id with
  | some position => (position, s)
  | none => (s.nodes.length,
    { s with nodes := s.nodes ++ [⟨id, none⟩], index := (id, s.nodes.length) :: s.index })

/-- Replaces the properties of a state, which is added if it is new. -/
def setProperties (id : String) (p : Properties) (s : Storage) : Storage :=
  let (position, s) := s.enter id
  { s with nodes := s.nodes.modify position fun n => { n with properties := some p } }

/-- Puts a transition into the slot that was freed last, or else into a new one. -/
def place (edge : StoredEdge) (s : Storage) : Storage :=
  { s with
    cells := match s.freed with
      | [] => s.cells ++ [some edge]
      | slot :: _ => s.cells.set slot (some edge)
    freed := s.freed.tail
    clock := s.clock + 1 }

/-- Adds a transition between two states, which are added if they are new. -/
def addTransition (head tail : String) (t : Transition) (s : Storage) : Storage :=
  let (head, s) := s.enter head
  let (tail, s) := s.enter tail
  s.place ⟨head, tail, t, s.clock⟩

/-- Frees a slot, if it is occupied. -/
def removeTransition (slot : Nat) (s : Storage) : Storage :=
  match s.cells[slot]? with
  | some (some _) => { s with cells := s.cells.set slot none, freed := slot :: s.freed }
  | _ => s

/-- The store after a change. -/
def apply (s : Storage) : Graph.Change → Storage
  | .addNode id => (s.enter id).2
  | .setProperties id p => s.setProperties id p
  | .addTransition head tail t => s.addTransition head tail t
  | .removeTransition slot => s.removeTransition slot

/-- The store after several changes. -/
def changed (s : Storage) (cs : List Graph.Change) : Storage :=
  cs.foldl apply s

/-! ## Views -/

/-- The ids of the states by position. -/
def ids (s : Storage) : List String :=
  s.nodes.map Node.id

/-- The state with an id. -/
def node? (s : Storage) (id : String) : Option Node :=
  (s.index.lookup id).bind fun position => s.nodes[position]?

/-- The occupied slots, in order, with what occupies them. -/
def live (s : Storage) : List (Nat × StoredEdge) :=
  s.cells.zipIdx.filterMap fun (cell, slot) => cell.map (slot, ·)

/-- Those of the transitions that leave a state. -/
def leaving (id : String) (s : Storage) : List (Nat × StoredEdge) :=
  match s.index.lookup id with
  | some position => s.live.filter fun p => p.2.head = position
  | none => []

/-- The id of the state at a position. -/
def idAt (s : Storage) (position : Nat) : String :=
  (s.ids[position]?).getD ""

/-- The transition in a slot, between the states at its ends. -/
def edge (s : Storage) (p : Nat × StoredEdge) : Edge :=
  ⟨s.idAt p.2.head, s.idAt p.2.tail, p.2.transition, p.1⟩

/-- Transitions that are listed in any order, in the order of their stamps. -/
def byStamp (s : Storage) (l : List (Nat × StoredEdge)) : List Edge :=
  (l.mergeSort fun p q => p.2.stamp ≤ q.2.stamp).map s.edge

/-- Whether what is read from the store is what the graph says. -/
structure Shows (s : Storage) (g : Graph) : Prop where
  /-- The states come in the same order. -/
  ids : s.ids = g.ids
  /-- They are found by their ids. -/
  node? : ∀ id, s.node? id = g.node? id
  /-- The transitions lead from and to states that are there. -/
  ends : ∀ p ∈ s.live, p.2.head < s.nodes.length ∧ p.2.tail < s.nodes.length
  /-- By their stamps they come in the order in which they were added. -/
  edges : ∀ l, l.Perm s.live → s.byStamp l = g.edges
  /-- So do those that leave one state. -/
  outgoing : ∀ id l, l.Perm (s.leaving id) → s.byStamp l = g.outgoing id
  /-- By their slots they come in the order in which they are drawn. -/
  bySlot : s.live.map s.edge = g.edgesBySlot

/-! ## Representation -/

/-- What a slot holds, without the stamp. -/
def unstamped (p : Nat × StoredEdge) : Nat × Nat × Nat × Transition :=
  (p.1, p.2.head, p.2.tail, p.2.transition)

/-- What the slot of a transition of a graph holds, without the stamp. -/
def placed (g : Graph) (e : Edge) : Nat × Nat × Nat × Transition :=
  (e.slot, g.position e.head, g.position e.tail, e.transition)

/-- Whether a store keeps a graph, with the given slots occupied from old to new. -/
structure Represents (s : Storage) (entries : List (Nat × StoredEdge)) (g : Graph) : Prop where
  /-- The states are those of the graph. -/
  nodes : s.nodes = g.nodes
  /-- The index knows their positions … -/
  index : ∀ id ∈ g.ids, s.index.lookup id = some (g.position id)
  /-- … and no other ids. -/
  unknown : ∀ id, id ∉ g.ids → s.index.lookup id = none
  /-- The same slots are free, in the same order. -/
  freed : s.freed = g.freed
  /-- There are as many slots. -/
  slots : s.cells.length = g.slots
  /-- The entries are the occupied slots. -/
  cells : ∀ slot edge, s.cells[slot]? = some (some edge) ↔ (slot, edge) ∈ entries
  /-- They hold the transitions of the graph, in the order in which these were added. -/
  edges : entries.map unstamped = g.edges.map (placed g)
  /-- Later transitions have later stamps. -/
  increasing : entries.Pairwise fun p q => p.2.stamp < q.2.stamp
  /-- The next stamp is later than all of them. -/
  past : ∀ p ∈ entries, p.2.stamp < s.clock

variable {s : Storage} {entries : List (Nat × StoredEdge)} {g : Graph} {id k : String}

theorem represents_empty : (∅ : Storage).Represents [] ∅ where
  nodes := rfl
  index := fun _ h => absurd h List.not_mem_nil
  unknown := fun _ _ => rfl
  freed := rfl
  slots := rfl
  cells := by simp [EmptyCollection.emptyCollection]
  edges := rfl
  increasing := List.Pairwise.nil
  past := by simp

/-! ### States -/

theorem placed_congr {g' : Graph} (hedges : g'.edges = g.edges)
    (hposition : ∀ k ∈ g.ids, g'.position k = g.position k) :
    g'.edges.map (placed g') = g.edges.map (placed g) := by
  rw [hedges]
  refine List.map_congr_left fun e he => ?_
  unfold placed
  rw [hposition _ (Graph.head_mem_ids he), hposition _ (Graph.tail_mem_ids he)]

/-- A new state goes to the end. -/
theorem Represents.enter_of_not_mem (h : s.Represents entries g) (hid : id ∉ g.ids) :
    (s.enter id).1 = (g.addNode id).position id
      ∧ (s.enter id).2.Represents entries (g.addNode id) := by
  have hlength : s.nodes.length = (g.addNode id).position id := by
    rw [Graph.position_addNode_self hid, h.nodes]
  have hnodes : (g.addNode id).nodes = g.nodes ++ [⟨id, none⟩] := by
    unfold Graph.addNode
    rw [dif_neg hid]
  have hindex : ∀ k ≠ id, ((id, s.nodes.length) :: s.index).lookup k = s.index.lookup k := by
    intro k hk
    have hne : (k == id) = false := by simpa using hk
    rw [List.lookup_cons, hne]
  unfold Storage.enter
  rw [h.unknown id hid]
  refine ⟨hlength, ?_, ?_, ?_, ?_, ?_, h.cells, ?_, h.increasing, h.past⟩
  · rw [hnodes]
    exact congrArg (· ++ _) h.nodes
  · intro k hk
    show ((id, s.nodes.length) :: s.index).lookup k = _
    rw [Graph.ids_addNode_of_not_mem hid, List.mem_append, List.mem_singleton] at hk
    rcases hk with hk | rfl
    · rw [hindex k fun he => hid (he ▸ hk), Graph.position_addNode_of_mem hk]
      exact h.index k hk
    · rw [List.lookup_cons_self, hlength]
  · intro k hk
    show ((id, s.nodes.length) :: s.index).lookup k = none
    rw [Graph.ids_addNode_of_not_mem hid, List.mem_append, List.mem_singleton, not_or] at hk
    rw [hindex k hk.2]
    exact h.unknown k hk.1
  · rw [Graph.freed_addNode]
    exact h.freed
  · rw [Graph.slots_addNode]
    exact h.slots
  · rw [placed_congr (Graph.edges_addNode id g) fun k hk => Graph.position_addNode_of_mem hk]
    exact h.edges

/-- **A state is entered** at the position that it has in the graph. -/
theorem Represents.enter (h : s.Represents entries g) (id : String) :
    (s.enter id).1 = (g.addNode id).position id
      ∧ (s.enter id).2.Represents entries (g.addNode id) := by
  by_cases hid : id ∈ g.ids
  · unfold Storage.enter
    rw [h.index id hid, Graph.addNode_of_mem hid]
    exact ⟨rfl, h⟩
  · exact h.enter_of_not_mem hid

theorem Represents.setProperties (h : s.Represents entries g) (id : String) (p : Properties) :
    (s.setProperties id p).Represents entries (g.setProperties id p) := by
  obtain ⟨hposition, hentered⟩ := h.enter id
  have hmem : id ∈ (g.addNode id).ids := Graph.mem_ids_addNode_self id g
  have hids : (g.setProperties id p).ids = (g.addNode id).ids := Graph.ids_modifyProperties _ _ _
  have hsame : ∀ k, (g.setProperties id p).position k = (g.addNode id).position k := by
    intro k
    unfold Graph.position
    rw [hids]
  have hplaced : (g.setProperties id p).edges.map (placed (g.setProperties id p))
      = (g.addNode id).edges.map (placed (g.addNode id)) :=
    placed_congr rfl fun k _ => hsame k
  refine ⟨?_, ?_, ?_, hentered.freed, hentered.slots, hentered.cells, ?_, hentered.increasing,
    hentered.past⟩
  · show (s.enter id).2.nodes.modify (s.enter id).1 _ = (g.addNode id).nodes.map _
    rw [Graph.map_modifyNode _ hmem, hposition, hentered.nodes]
  · intro k hk
    rw [hids] at hk
    rw [hsame]
    exact hentered.index k hk
  · intro k hk
    rw [hids] at hk
    exact hentered.unknown k hk
  · rw [hplaced]
    exact hentered.edges

/-! ### Transitions -/

/-- The slots that are occupied are those of the transitions of the graph. -/
theorem Represents.map_fst_entries (h : s.Represents entries g) :
    entries.map Prod.fst = g.edges.map Edge.slot := by
  have hslots := congrArg (List.map Prod.fst) h.edges
  rw [List.map_map, List.map_map] at hslots
  exact hslots

theorem Represents.mem_slots_iff (h : s.Represents entries g) {slot : Nat} :
    slot ∈ g.edges.map Edge.slot ↔ ∃ edge, s.cells[slot]? = some (some edge) := by
  rw [← h.map_fst_entries, List.mem_map]
  constructor
  · rintro ⟨⟨slot, edge⟩, hmem, rfl⟩
    exact ⟨edge, (h.cells slot edge).2 hmem⟩
  · rintro ⟨edge, hcell⟩
    exact ⟨(slot, edge), (h.cells slot edge).1 hcell, rfl⟩

theorem Represents.entries_nodup (h : s.Represents entries g) : (entries.map Prod.fst).Nodup := by
  rw [h.map_fst_entries]
  exact g.slots_nodup

theorem Represents.lt_of_mem_freed (h : s.Represents entries g) {slot : Nat}
    (hslot : slot ∈ s.freed) : slot < s.cells.length := by
  rw [h.freed] at hslot
  rw [h.slots, ← List.mem_range]
  exact g.slots_perm.mem_iff.1 (List.mem_append_right _ hslot)

/-- Placing a transition changes no other slot. -/
theorem Represents.getElem?_cells_place (h : s.Represents entries g) (edge : StoredEdge)
    (slot : Nat) :
    (s.place edge).cells[slot]?
      = if slot = g.nextSlot then some (some edge) else s.cells[slot]? := by
  unfold Storage.place Graph.nextSlot
  rw [← h.freed, ← h.slots]
  cases hf : s.freed with
  | nil =>
    show (s.cells ++ [some edge])[slot]? = if slot = s.cells.length then _ else _
    by_cases hslot : slot = s.cells.length
    · rw [if_pos hslot, hslot, List.getElem?_concat_length]
    · rw [if_neg hslot]
      rcases Nat.lt_or_gt_of_ne hslot with hlt | hgt
      · exact List.getElem?_append_left hlt
      · rw [List.getElem?_eq_none (Nat.le_of_lt hgt), List.getElem?_eq_none]
        rw [List.length_append]
        exact hgt
  | cons top freed =>
    show (s.cells.set top (some edge))[slot]? = if slot = top then _ else _
    have hlt : top < s.cells.length := h.lt_of_mem_freed (hf ▸ List.mem_cons_self)
    by_cases hslot : slot = top
    · rw [if_pos hslot, hslot, List.getElem?_set_self hlt]
    · rw [if_neg hslot, List.getElem?_set_ne fun he => hslot he.symm]

theorem Represents.length_cells_place (h : s.Represents entries g) (edge : StoredEdge) :
    (s.place edge).cells.length = if g.freed.isEmpty then g.slots + 1 else g.slots := by
  unfold Storage.place
  rw [← h.freed, ← h.slots]
  cases s.freed with
  | nil => exact List.length_append
  | cons slot freed => exact List.length_set

/-- **A transition is placed** in the slot that it takes in the graph. -/
theorem Represents.place (h : s.Represents entries g) {head tail : String} {t : Transition}
    (hh : head ∈ g.ids) (ht : tail ∈ g.ids) :
    (s.place ⟨g.position head, g.position tail, t, s.clock⟩).Represents
      (entries ++ [(g.nextSlot, ⟨g.position head, g.position tail, t, s.clock⟩)])
      (g.connect head tail t hh ht) := by
  -- A slot that is used again must not be one that an older entry still has.
  have hfree : ∀ edge, (g.nextSlot, edge) ∉ entries := by
    intro edge hm
    apply Graph.nextSlot_not_mem g
    rw [← h.map_fst_entries]
    exact List.mem_map_of_mem hm
  refine ⟨h.nodes, h.index, h.unknown, ?_, h.length_cells_place _, ?_, ?_, ?_, ?_⟩
  · show s.freed.tail = g.freed.tail
    rw [h.freed]
  · intro slot edge
    rw [h.getElem?_cells_place, List.mem_append, List.mem_singleton, Prod.mk.injEq]
    by_cases hslot : slot = g.nextSlot
    · rw [if_pos hslot, hslot, Option.some.injEq, Option.some.injEq, or_iff_right (hfree edge),
        and_iff_right rfl, eq_comm]
    · rw [if_neg hslot, h.cells, or_iff_left fun he => hslot he.1]
  · show _ = (g.edges ++ [_]).map _
    rw [List.map_append, List.map_append, h.edges]
    rfl
  · refine List.pairwise_append.2 ⟨h.increasing, List.pairwise_singleton _ _, ?_⟩
    intro p hp q hq
    rw [List.mem_singleton.1 hq]
    exact h.past p hp
  · intro p hp
    show p.2.stamp < s.clock + 1
    rcases List.mem_append.1 hp with hold | hnew
    · exact Nat.lt_succ_of_lt (h.past p hold)
    · rw [List.mem_singleton.1 hnew]
      exact Nat.lt_succ_self _

theorem Represents.addTransition (h : s.Represents entries g) (head tail : String)
    (t : Transition) :
    ∃ entries', (s.addTransition head tail t).Represents entries' (g.addTransition head tail t) := by
  obtain ⟨hhead, hentered⟩ := h.enter head
  obtain ⟨htail, hentered'⟩ := hentered.enter tail
  have hkept : (s.enter head).1 = ((g.addNode head).addNode tail).position head := by
    rw [hhead, Graph.position_addNode_of_mem (Graph.mem_ids_addNode_self head g)]
  have hplaced := hentered'.place (t := t)
    (Graph.mem_ids_addNode (Graph.mem_ids_addNode_self head g))
    (Graph.mem_ids_addNode_self tail (g.addNode head))
  rw [← hkept, ← htail] at hplaced
  exact ⟨_, hplaced⟩

/-- A slot that is occupied becomes free. -/
theorem Represents.removeTransition_of_mem (h : s.Represents entries g) {slot : Nat}
    (hslot : slot ∈ g.edges.map Edge.slot) :
    (s.removeTransition slot).Represents (entries.filter fun p => p.1 ≠ slot)
      (g.removeTransition slot) := by
  obtain ⟨removed, hcell⟩ := h.mem_slots_iff.1 hslot
  have hlt : slot < s.cells.length := (List.getElem?_eq_some_iff.1 hcell).1
  unfold Storage.removeTransition Graph.removeTransition
  rw [hcell, dif_pos hslot]
  refine ⟨h.nodes, h.index, h.unknown, ?_, ?_, ?_, ?_, h.increasing.filter _, ?_⟩
  · show slot :: s.freed = slot :: g.freed
    rw [h.freed]
  · show (s.cells.set slot none).length = g.slots
    rw [List.length_set, h.slots]
  · intro k edge
    show (s.cells.set slot none)[k]? = some (some edge) ↔ _
    rw [List.mem_filter, ← h.cells]
    by_cases hk : k = slot
    · rw [hk, List.getElem?_set_self hlt]
      simp
    · rw [List.getElem?_set_ne fun he => hk he.symm]
      simp [hk]
  · have hremaining : (entries.filter fun p => p.1 ≠ slot).map unstamped
        = (entries.map unstamped).filter fun q => q.1 ≠ slot := by
      rw [List.filter_map]
      rfl
    rw [hremaining, h.edges, List.filter_map]
    rfl
  · intro p hp
    exact h.past p (List.mem_filter.1 hp).1

/-- Nothing happens to a slot that is not occupied. -/
theorem Represents.removeTransition_of_not_mem (h : s.Represents entries g) {slot : Nat}
    (hslot : slot ∉ g.edges.map Edge.slot) : s.removeTransition slot = s := by
  unfold Storage.removeTransition
  split
  · rename_i edge he
    exact absurd (h.mem_slots_iff.2 ⟨edge, he⟩) hslot
  · rfl

/-- **A transition is removed** from the slot that it occupies in the graph. -/
theorem Represents.removeTransition (h : s.Represents entries g) (slot : Nat) :
    ∃ entries', (s.removeTransition slot).Represents entries' (g.removeTransition slot) := by
  by_cases hslot : slot ∈ g.edges.map Edge.slot
  · exact ⟨_, h.removeTransition_of_mem hslot⟩
  · refine ⟨entries, ?_⟩
    unfold Graph.removeTransition
    rw [h.removeTransition_of_not_mem hslot, dif_neg hslot]
    exact h

/-! ## Histories -/

/-- **The step.** A change of the graph is the same change of the store. -/
theorem Represents.apply (h : s.Represents entries g) (c : Graph.Change) :
    ∃ entries', (s.apply c).Represents entries' (c.apply g) := by
  cases c with
  | addNode id => exact ⟨entries, (h.enter id).2⟩
  | setProperties id p => exact ⟨entries, h.setProperties id p⟩
  | addTransition head tail t => exact h.addTransition head tail t
  | removeTransition slot => exact h.removeTransition slot

/-- **The run.** So are several changes. -/
theorem Represents.changed (h : s.Represents entries g) (cs : List Graph.Change) :
    ∃ entries', (s.changed cs).Represents entries' (g.changed cs) := by
  -- Every change has entries of its own, from which the next one goes on.
  induction cs generalizing s entries g with
  | nil => exact ⟨entries, h⟩
  | cons c cs ih =>
    obtain ⟨entries', h'⟩ := h.apply c
    exact ih h'

/-! ## What is read -/

theorem mem_live {p : Nat × StoredEdge} : p ∈ s.live ↔ s.cells[p.1]? = some (some p.2) := by
  obtain ⟨slot, edge⟩ := p
  unfold live
  rw [List.mem_filterMap]
  constructor
  · rintro ⟨⟨cell, i⟩, hmem, hcell⟩
    obtain ⟨edge', rfl, he⟩ := Option.map_eq_some_iff.1 hcell
    cases he
    exact List.mk_mem_zipIdx_iff_getElem?.1 hmem
  · intro hcell
    exact ⟨(some edge, slot), List.mk_mem_zipIdx_iff_getElem?.2 hcell, rfl⟩

theorem live_sorted (s : Storage) : s.live.Pairwise fun p q => p.1 < q.1 := by
  have hslots : s.cells.zipIdx.Pairwise fun p q => p.2 < q.2 := by
    rw [← List.pairwise_map (f := Prod.snd) (R := (· < ·)), List.zipIdx_map_snd]
    exact List.pairwise_lt_range'
  refine hslots.filterMap _ ?_
  rintro ⟨cell, i⟩ ⟨cell', j⟩ hlt p hp q hq
  obtain ⟨_, -, rfl⟩ := Option.map_eq_some_iff.1 hp
  obtain ⟨_, -, rfl⟩ := Option.map_eq_some_iff.1 hq
  exact hlt

namespace Represents

/-- The occupied slots are the same from old to new and by number. -/
theorem perm_live (h : s.Represents entries g) : s.live.Perm entries := by
  have hlive : s.live.Nodup := s.live_sorted.imp fun hlt he => absurd (he ▸ hlt) (Nat.lt_irrefl _)
  refine (List.perm_ext_iff_of_nodup hlive h.entries_nodup.of_map).2 fun p => ?_
  rw [mem_live, h.cells]

theorem ids_eq (h : s.Represents entries g) : s.ids = g.ids :=
  congrArg (List.map Node.id) h.nodes

theorem idAt_position (h : s.Represents entries g) (hid : id ∈ g.ids) :
    s.idAt (g.position id) = id := by
  have hat : g.ids[g.position id]? = some id := List.getElem?_idxOf hid
  unfold idAt
  rw [h.ids_eq, hat, Option.getD_some]

/-- Entries that hold transitions of the graph are read as these. -/
theorem map_edge (h : s.Represents entries g) {ps : List (Nat × StoredEdge)} {es : List Edge}
    (hes : ∀ e ∈ es, e ∈ g.edges) (heq : ps.map unstamped = es.map (placed g)) :
    ps.map s.edge = es := by
  -- Positions of states are read back as their ids.
  have hread := congrArg (List.map fun q : Nat × Nat × Nat × Transition =>
    Edge.mk (s.idAt q.2.1) (s.idAt q.2.2.1) q.2.2.2 q.1) heq
  rw [List.map_map, List.map_map] at hread
  refine hread.trans ((List.map_congr_left fun e he => ?_).trans (List.map_id' es))
  show Edge.mk (s.idAt (g.position e.head)) (s.idAt (g.position e.tail)) e.transition e.slot = e
  rw [h.idAt_position (Graph.head_mem_ids (hes e he)),
    h.idAt_position (Graph.tail_mem_ids (hes e he))]

/-- Entries in any order are read from old to new. -/
theorem byStamp_eq (h : s.Represents entries g) {l ps : List (Nat × StoredEdge)} {es : List Edge}
    (hps : ps.Sublist entries) (hl : l.Perm ps) (hes : ∀ e ∈ es, e ∈ g.edges)
    (heq : ps.map unstamped = es.map (placed g)) : s.byStamp l = es := by
  have hsorted : (l.mergeSort fun p q => p.2.stamp ≤ q.2.stamp) = ps :=
    mergeSort_eq_of_perm hl (h.increasing.sublist hps)
  unfold byStamp
  rw [hsorted]
  exact h.map_edge hes heq

theorem node?_eq (h : s.Represents entries g) (id : String) : s.node? id = g.node? id := by
  unfold Storage.node?
  by_cases hid : id ∈ g.ids
  · rw [h.index id hid, Option.bind_some, h.nodes]
    have hat : g.ids[g.position id]? = some id := List.getElem?_idxOf hid
    unfold Graph.ids at hat
    rw [List.getElem?_map] at hat
    obtain ⟨n, hn, hnid⟩ := Option.map_eq_some_iff.1 hat
    -- Both the state at the position and the one that is searched for have the id.
    cases hm : g.node? id with
    | none => exact absurd hid (Graph.node?_eq_none_iff.1 hm)
    | some m =>
      have hmid : m.id = id := by simpa using List.find?_some hm
      rw [hn, List.inj_on_of_nodup_map g.ids_nodup (List.mem_of_getElem? hn)
        (List.mem_of_find?_eq_some hm) (hnid.trans hmid.symm)]
  · rw [h.unknown id hid, Graph.node?_eq_none_iff.2 hid]
    rfl

/-- The ends of a transition are positions of states. -/
theorem ends_lt (h : s.Represents entries g) {p : Nat × StoredEdge} (hp : p ∈ s.live) :
    p.2.head < s.nodes.length ∧ p.2.tail < s.nodes.length := by
  have hlt : ∀ k ∈ g.ids, g.position k < s.nodes.length := by
    intro k hk
    rw [← List.length_map Node.id, h.nodes]
    exact List.idxOf_lt_length_iff.2 hk
  have hplaced : unstamped p ∈ g.edges.map (placed g) := by
    rw [← h.edges]
    exact List.mem_map_of_mem (h.perm_live.mem_iff.1 hp)
  obtain ⟨e, he, heq⟩ := List.mem_map.1 hplaced
  have hhead : g.position e.head = p.2.head := congrArg (fun q => q.2.1) heq
  have htail : g.position e.tail = p.2.tail := congrArg (fun q => q.2.2.1) heq
  rw [← hhead, ← htail]
  exact ⟨hlt _ (Graph.head_mem_ids he), hlt _ (Graph.tail_mem_ids he)⟩

/-- The entries that leave the position of a state hold the transitions out of the state. -/
theorem map_unstamped_leaving (h : s.Represents entries g) (id : String) :
    (entries.filter fun p => p.2.head = g.position id).map unstamped
      = (g.outgoing id).map (placed g) := by
  have hleaving : (entries.filter fun p => p.2.head = g.position id).map unstamped
      = (entries.map unstamped).filter fun q => q.2.1 = g.position id := by
    rw [List.filter_map]
    rfl
  rw [hleaving, h.edges, List.filter_map]
  refine congrArg _ (List.filter_congr fun e he => ?_)
  rw [Function.comp_apply, decide_eq_decide]
  show g.position e.head = g.position id ↔ e.head = id
  exact List.idxOf_inj (Graph.head_mem_ids he)

theorem byStamp_leaving (h : s.Represents entries g) (id : String) {l : List (Nat × StoredEdge)}
    (hl : l.Perm (s.leaving id)) : s.byStamp l = g.outgoing id := by
  unfold leaving at hl
  by_cases hid : id ∈ g.ids
  · rw [h.index id hid] at hl
    have hperm : l.Perm (entries.filter fun p => p.2.head = g.position id) :=
      hl.trans (h.perm_live.filter _)
    exact h.byStamp_eq List.filter_sublist hperm (fun e he => (List.mem_filter.1 he).1)
      (h.map_unstamped_leaving id)
  · rw [h.unknown id hid] at hl
    have hnone : g.outgoing id = [] := by
      refine List.filter_eq_nil_iff.2 fun e he heq => hid ?_
      rw [← of_decide_eq_true heq]
      exact Graph.head_mem_ids he
    rw [hnone]
    exact h.byStamp_eq (List.nil_sublist _) hl (fun e he => absurd he List.not_mem_nil) rfl

/-- Slots are drawn in their order. -/
theorem map_edge_live (h : s.Represents entries g) : s.live.map s.edge = g.edgesBySlot := by
  have hperm : g.edges.Perm (s.live.map s.edge) := by
    rw [← h.map_edge (fun e he => he) h.edges]
    exact (h.perm_live.map _).symm
  have hsorted : (s.live.map s.edge).Pairwise fun e f => e.slot < f.slot :=
    List.pairwise_map.2 s.live_sorted
  exact (mergeSort_eq_of_perm hperm hsorted).symm

/-- **What is read from the store** is what the graph says. -/
theorem shows (h : s.Represents entries g) : s.Shows g where
  ids := h.ids_eq
  node? := h.node?_eq
  ends := fun _ hp => h.ends_lt hp
  edges := fun _ hl =>
    h.byStamp_eq (List.Sublist.refl _) (hl.trans h.perm_live) (fun _ he => he) h.edges
  outgoing := fun id _ hl => h.byStamp_leaving id hl
  bySlot := h.map_edge_live

end Represents
end Storage

/-- **Insertion order over any history.** Whatever changes are made to the empty graph, it reports
    their states and transitions in the order in which they came. That is also what is read from a
    store to which the same changes are made, where slots are used again. -/
theorem changed_reports_insertion_order (cs : List Graph.Change) :
    ((∅ : Graph).changed cs).Reports cs
      ∧ ((∅ : Storage).changed cs).Shows ((∅ : Graph).changed cs) := by
  obtain ⟨entries, h⟩ := Storage.represents_empty.changed cs
  exact ⟨Graph.reports_changed cs, h.shows⟩

/-- The newest transition comes last, though it sits in the slot of one that was removed. -/
example :
    let cs := [.addTransition "a" "b" (.on .smash), .addTransition "a" "c" (.on .water),
      .removeTransition 0, .addTransition "a" "d" (.on .use)]
    let s := (∅ : Storage).changed cs
    (((∅ : Graph).changed cs).outgoing "a").map Edge.tail = ["c", "d"]
      ∧ s.live.map (fun p => (s.edge p).tail) = ["d", "c"] := by
  decide +kernel

end GameContent
