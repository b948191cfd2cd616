import GameContent.Proofs.FirstOccurrences
import GameContent.Proofs.Transition.Operations
import GameContent.Transition.Dot

/-!
# `Proofs.Transition.History` — what a graph reports after any history

A graph comes about by changes, made one after the other to the empty graph. What it reports in the
end is said here from the changes alone: which states were mentioned first, which properties were
set last, and which transitions were added and have not been removed since. Slots are used again, so
a slot says which transition a removal means only at the time of the removal.

## Contents
- `Change` and what a change mentions, sets, adds and removes.
- For each view of a graph, what one change does to it (`ids_apply`, `properties?_apply`,
  `edges_apply`) and what a history does (`ids_changed`, `properties?_changed`, `edges_changed`).
- **Reports.** `reports_changed` puts the views together.
-/

namespace GameContent

/-! ## Sorting by a number -/

theorem pairwise_mergeSort_le {α : Type} (key : α → Nat) (l : List α) :
    (l.mergeSort fun a b => key a ≤ key b).Pairwise fun a b => key a ≤ key b := by
  have hsorted := List.pairwise_mergeSort
    (fun a b c hab hbc => decide_eq_true
      (Nat.le_trans (of_decide_eq_true hab : key a ≤ key b) (of_decide_eq_true hbc : _ ≤ key c)))
    (fun a b => by simpa using Nat.le_total (key a) (key b)) l
  exact hsorted.imp fun h => of_decide_eq_true h

/-- If no two elements have the same number, there is one way to sort them. -/
theorem mergeSort_eq_of_perm {α : Type} {key : α → Nat} {l l' : List α} (h : l.Perm l')
    (hl' : l'.Pairwise fun a b => key a < key b) :
    (l.mergeSort fun a b => key a ≤ key b) = l' := by
  have hperm : (l.mergeSort fun a b => key a ≤ key b).Perm l' := (List.mergeSort_perm l _).trans h
  have hnodup : (l'.map key).Nodup :=
    List.pairwise_map.2 (hl'.imp fun hlt => Nat.ne_of_lt hlt)
  refine List.Perm.eq_of_pairwise ?_ (pairwise_mergeSort_le key l)
    (hl'.imp fun hlt => Nat.le_of_lt hlt) hperm
  intro a b ha hb hab hba
  exact List.inj_on_of_nodup_map hnodup (hperm.mem_iff.1 ha) hb (Nat.le_antisymm hab hba)

namespace Graph

/-! ## Changes -/

/-- A change of a graph. -/
inductive Change where
  /-- Adds a state. -/
  | addNode (id : String)
  /-- Replaces the properties of a state. -/
  | setProperties (id : String) (properties : Properties)
  /-- Adds a transition. -/
  | addTransition (head tail : String) (transition : Transition)
  /-- Removes the transition that occupies a slot, if there is one. -/
  | removeTransition (slot : Nat)

namespace Change

/-- The graph after the change. -/
def apply : Change → Graph → Graph
  | addNode id, g => g.addNode id
  | setProperties id p, g => g.setProperties id p
  | addTransition head tail t, g => g.addTransition head tail t
  | removeTransition slot, g => g.removeTransition slot

/-- The states that the change mentions, in order. -/
def mentioned : Change → List String
  | addNode id => [id]
  | setProperties id _ => [id]
  | addTransition head tail _ => [head, tail]
  | removeTransition _ => []

/-- The properties that the change sets for a state. -/
def propertiesOf? (id : String) : Change → Option Properties
  | setProperties k p => if k = id then some p else none
  | _ => none

/-- The transition that the change adds to a graph. -/
def added? (g : Graph) : Change → Option Edge
  | addTransition head tail t => some ⟨head, tail, t, g.nextSlot⟩
  | _ => none

/-- Whether the change removes what occupies the slot. -/
def removes (slot : Nat) : Change → Bool
  | removeTransition s => s = slot
  | _ => false

end Change

/-- The graph after several changes. -/
def changed (g : Graph) (cs : List Change) : Graph :=
  cs.foldl (fun g c => c.apply g) g

/-- The transitions that the changes add, in order, without those that a later change removes. -/
def standing (g : Graph) : List Change → List Edge
  | [] => []
  | c :: cs =>
    ((c.added? g).toList.filter fun e => cs.all fun c => !c.removes e.slot)
      ++ standing (c.apply g) cs

/-- What a graph with the given history reports. -/
structure Reports (g : Graph) (cs : List Change) : Prop where
  /-- No two states have the same id. -/
  ids_nodup : g.ids.Nodup
  /-- The states come in the order in which they were first mentioned. -/
  ids : g.ids = firstOccurrences id [] (cs.flatMap Change.mentioned)
  /-- An id that was mentioned is that of a state, with the properties that were last set for it. -/
  node? : ∀ id, g.node? id = if id ∈ cs.flatMap Change.mentioned
    then some ⟨id, (cs.filterMap (Change.propertiesOf? id)).getLast?⟩ else none
  /-- The transitions are those that were added and not removed, in the order of adding. -/
  edges : g.edges = standing ∅ cs
  /-- Those out of one state come in the same order. -/
  outgoing : ∀ id, g.outgoing id = (standing ∅ cs).filter fun e => e.head = id
  /-- In the order of their slots they are the same transitions. -/
  bySlot_perm : g.edgesBySlot.Perm (standing ∅ cs)
  /-- No two of them have the same slot. -/
  bySlot_sorted : g.edgesBySlot.Pairwise fun e f => e.slot < f.slot

variable {g : Graph} {k : String}

/-! ## States -/

/-- A change adds the states that it mentions unless they are there. -/
theorem ids_apply (c : Change) (g : Graph) :
    (c.apply g).ids
      = c.mentioned.foldl (fun seen k => if k ∈ seen then seen else seen ++ [k]) g.ids := by
  cases c with
  | addNode k => exact ids_addNode k g
  | setProperties k p =>
    show ((g.addNode k).modifyProperties k _).ids = _
    rw [ids_modifyProperties]
    exact ids_addNode k g
  | addTransition head tail t =>
    show ((g.addNode head).addNode tail).ids = _
    rw [ids_addNode, ids_addNode]
    rfl
  | removeTransition slot => exact ids_removeTransition slot g

theorem ids_changed (cs : List Change) (g : Graph) :
    (g.changed cs).ids = g.ids ++ firstOccurrences id g.ids (cs.flatMap Change.mentioned) := by
  rw [← foldl_eq_append_firstOccurrences]
  induction cs generalizing g with
  | nil => rfl
  | cons c cs ih =>
    show ((c.apply g).changed cs).ids = _
    rw [ih, ids_apply, List.flatMap_cons, List.foldl_append]

theorem mem_ids_changed_empty {cs : List Change} :
    k ∈ ((∅ : Graph).changed cs).ids ↔ k ∈ cs.flatMap Change.mentioned := by
  have hids : ((∅ : Graph).changed cs).ids
      = (firstOccurrences id [] (cs.flatMap Change.mentioned)).map id := by
    rw [ids_changed, List.map_id]
    rfl
  rw [hids, mem_map_firstOccurrences, List.map_id]
  exact and_iff_left List.not_mem_nil

/-! ## Properties -/

/-- The state with an id, said of the views. -/
theorem node?_eq (g : Graph) (k : String) :
    g.node? k = if k ∈ g.ids then some ⟨k, g.properties? k⟩ else none := by
  unfold properties?
  cases hn : g.node? k with
  | none =>
    rw [if_neg (node?_eq_none_iff.1 hn)]
  | some n =>
    have hid : n.id = k := by simpa using List.find?_some hn
    have hmem : k ∈ g.ids := by
      by_contra hc
      rw [node?_eq_none_iff.2 hc] at hn
      exact absurd hn (by simp)
    rw [if_pos hmem, ← hid]
    rfl

theorem properties?_apply (c : Change) (g : Graph) (k : String) :
    (c.apply g).properties? k = (c.propertiesOf? k).or (g.properties? k) := by
  cases c with
  | addNode id => exact properties?_addNode id k g
  | setProperties id p =>
    show (g.setProperties id p).properties? k = (if id = k then some p else none).or _
    by_cases h : id = k
    · rw [if_pos h, ← h, properties?_setProperties_self, Option.some_or]
    · rw [if_neg h, properties?_setProperties_of_ne p fun he => h he.symm, Option.none_or]
  | addTransition head tail t => exact properties?_addTransition head tail k t g
  | removeTransition slot => exact properties?_removeTransition slot k g

/-- The properties that were set last are there, or those from before. -/
theorem properties?_changed (cs : List Change) (g : Graph) (k : String) :
    (g.changed cs).properties? k
      = (cs.filterMap (Change.propertiesOf? k)).getLast?.or (g.properties? k) := by
  induction cs generalizing g with
  | nil => rfl
  | cons c cs ih =>
    show ((c.apply g).changed cs).properties? k = _
    rw [ih, properties?_apply, ← Option.or_assoc, List.filterMap_cons]
    cases c.propertiesOf? k with
    | none => rw [Option.or_none]
    | some p =>
      rw [List.getLast?_cons, Option.or_some]

/-! ## Transitions -/

theorem edges_apply (c : Change) (g : Graph) :
    (c.apply g).edges
      = (g.edges.filter fun e => !c.removes e.slot) ++ (c.added? g).toList := by
  have hall : ∀ es : List Edge, (es.filter fun _ => !false) = es := fun es => by simp
  cases c with
  | addNode k =>
    show (g.addNode k).edges = (g.edges.filter fun _ => !false) ++ []
    rw [hall, edges_addNode, List.append_nil]
  | setProperties k p =>
    show (g.setProperties k p).edges = (g.edges.filter fun _ => !false) ++ []
    rw [hall, edges_setProperties, List.append_nil]
  | addTransition head tail t =>
    show (g.addTransition head tail t).edges = (g.edges.filter fun _ => !false) ++ [_]
    rw [hall, edges_addTransition, nextSlot_addNode, nextSlot_addNode]
  | removeTransition slot =>
    show (g.removeTransition slot).edges = _ ++ []
    rw [edges_removeTransition, List.append_nil]
    refine List.filter_congr fun e _ => ?_
    simp [Change.removes, eq_comm]

/-- The transitions that were there come first as far as no change removes them, then those that the
    changes have added. -/
theorem edges_changed (cs : List Change) (g : Graph) :
    (g.changed cs).edges
      = (g.edges.filter fun e => cs.all fun c => !c.removes e.slot) ++ g.standing cs := by
  -- The transitions that a change finds are those that the changes before it have left.
  induction cs generalizing g with
  | nil => simp [changed, standing]
  | cons c cs ih =>
    show ((c.apply g).changed cs).edges = _
    rw [ih, edges_apply, List.filter_append, List.filter_filter, standing, List.append_assoc]
    refine congrArg (· ++ _) (List.filter_congr fun e _ => ?_)
    rw [List.all_cons, Bool.and_comm]

/-- The transitions in the order of their slots, which are all different. -/
theorem edgesBySlot_sorted (g : Graph) :
    g.edgesBySlot.Pairwise fun e f => e.slot < f.slot := by
  have hle : g.edgesBySlot.Pairwise fun e f => e.slot ≤ f.slot :=
    pairwise_mergeSort_le Edge.slot g.edges
  have hne : g.edgesBySlot.Pairwise fun e f => e.slot ≠ f.slot :=
    List.pairwise_map.1 ((g.edgesBySlot_perm.map Edge.slot).nodup_iff.2 g.slots_nodup)
  exact hle.imp₂ (fun _ _ h h' => Nat.lt_of_le_of_ne h h') hne

/-! ## Reports -/

/-- **What a graph reports** after any history of changes. -/
theorem reports_changed (cs : List Change) : ((∅ : Graph).changed cs).Reports cs := by
  have hedges : ((∅ : Graph).changed cs).edges = standing ∅ cs := edges_changed cs ∅
  refine ⟨ids_nodup _, ids_changed cs ∅, ?_, hedges, ?_, ?_, edgesBySlot_sorted _⟩
  · intro k
    have hunset : (∅ : Graph).properties? k = none := rfl
    rw [node?_eq, properties?_changed, hunset, Option.or_none]
    simp only [mem_ids_changed_empty]
  · intro k
    unfold outgoing
    rw [hedges]
  · rw [← hedges]
    exact edgesBySlot_perm _

end Graph
end GameContent
