import GameContent.Proofs.Transition.Planning

/-!
# `Proofs.Transition.Application` — carrying out a plan

A plan is carried out in three rounds: transitions are removed, transitions are added, and
properties are set. Each round is a fold of one operation; these lemmas say what the round as a
whole does to the views of the graph. States appear only in the second round, as the waiting states
of the chains, in order (`ids_addMoves_chains`).
-/

namespace GameContent

/-- A transition without its slot. -/
def Edge.toMove (e : Edge) : Expansion.Move := ⟨e.head, e.tail, e.transition⟩

namespace Expansion

/-- Removes the transitions that were delayed. -/
def removeDelayed (ds : List Delayed) (g : Graph) : Graph :=
  ds.foldl (fun g d => g.removeTransition d.edge.slot) g

/-- Adds several transitions. -/
def addMoves (ms : List Move) (g : Graph) : Graph :=
  ms.foldl (fun g m => g.addTransition m.head m.tail m.transition) g

/-- Sets the properties of several waiting states. -/
def setWaiting (ws : List WaitingState) (g : Graph) : Graph :=
  ws.foldl (fun g w => g.setProperties w.id w.properties) g

theorem Plan.apply_eq (plan : Plan) (ds : List Delayed) :
    plan.apply ds = setWaiting plan.waiting (addMoves plan.moves (removeDelayed ds plan.graph)) :=
  rfl

/-! ## Removing -/

@[simp] theorem ids_removeDelayed (ds : List Delayed) (g : Graph) :
    (removeDelayed ds g).ids = g.ids := by
  induction ds generalizing g with
  | nil => rfl
  | cons d ds ih => exact (ih _).trans (g.ids_removeTransition _)

@[simp] theorem properties?_removeDelayed (ds : List Delayed) (g : Graph) (k : String) :
    (removeDelayed ds g).properties? k = g.properties? k := by
  induction ds generalizing g with
  | nil => rfl
  | cons d ds ih => exact (ih _).trans (g.properties?_removeTransition _ k)

theorem edges_removeDelayed (ds : List Delayed) (g : Graph) :
    (removeDelayed ds g).edges = g.edges.filter fun e => ∀ d ∈ ds, e.slot ≠ d.edge.slot := by
  induction ds generalizing g with
  | nil => simp [removeDelayed]
  | cons d ds ih =>
    have hcons : removeDelayed (d :: ds) g = removeDelayed ds (g.removeTransition d.edge.slot) :=
      rfl
    rw [hcons, ih, Graph.edges_removeTransition, Graph.withoutSlot, List.filter_filter]
    refine List.filter_congr fun e _ => ?_
    simp [Bool.and_comm]

/-! ## Adding -/

theorem addMoves_append (ms ns : List Move) (g : Graph) :
    addMoves (ms ++ ns) g = addMoves ns (addMoves ms g) :=
  List.foldl_append

@[simp] theorem properties?_addMoves (ms : List Move) (g : Graph) (k : String) :
    (addMoves ms g).properties? k = g.properties? k := by
  induction ms generalizing g with
  | nil => rfl
  | cons m ms ih => exact (ih _).trans (g.properties?_addTransition _ _ k _)

/-- Added transitions come last, in order. -/
theorem exists_edges_addMoves (ms : List Move) (g : Graph) :
    ∃ added, (addMoves ms g).edges = g.edges ++ added ∧ added.map Edge.toMove = ms := by
  induction ms generalizing g with
  | nil => exact ⟨[], (List.append_nil _).symm, rfl⟩
  | cons m ms ih =>
    obtain ⟨added, hedges, hadded⟩ := ih (g.addTransition m.head m.tail m.transition)
    rw [Graph.edges_addTransition, List.append_assoc] at hedges
    exact ⟨_, hedges, by rw [List.singleton_append, List.map_cons, hadded]; rfl⟩

/-- Transitions between states of the graph add no state. -/
theorem ids_addMoves_of_mem {ms : List Move} {g : Graph}
    (h : ∀ m ∈ ms, m.head ∈ g.ids ∧ m.tail ∈ g.ids) : (addMoves ms g).ids = g.ids := by
  induction ms generalizing g with
  | nil => rfl
  | cons m ms ih =>
    obtain ⟨hh, ht⟩ := h m List.mem_cons_self
    have hids := Graph.ids_addTransition_of_mem m.transition hh ht
    refine (ih fun n hn => ?_).trans hids
    rw [hids]
    exact h n (List.mem_cons_of_mem _ hn)

variable {scheme : IdScheme} {d : Delayed}

/-- One waiting state comes into being with the transition into it. -/
theorem ids_addMoves_movesAt {g : Graph} {k : Nat} (hprev : scheme.idAt d.edge.head k ∈ g.ids)
    (htargets : ∀ r ∈ d.edge.transition.redirects, r.target ∈ g.ids)
    (hnew : scheme.idAt d.edge.head (k + 1) ∉ g.ids) :
    (addMoves (d.movesAt scheme k) g).ids = g.ids ++ [scheme.idAt d.edge.head (k + 1)] := by
  have hids := Graph.ids_addTransition_of_not_mem (.on .newDay) hprev hnew
  refine (ids_addMoves_of_mem ?_ : (addMoves _ (g.addTransition _ _ _)).ids = _).trans hids
  intro m hm
  obtain ⟨r, hr, rfl⟩ := List.mem_map.1 hm
  rw [hids]
  exact ⟨List.mem_append_right _ List.mem_cons_self, List.mem_append_left _ (htargets r hr)⟩

/-- The waiting states from one on come into being in order. -/
theorem ids_addMoves_flatMap_movesAt {count : Nat} {g : Graph} {k : Nat}
    (hprev : scheme.idAt d.edge.head k ∈ g.ids)
    (htargets : ∀ r ∈ d.edge.transition.redirects, r.target ∈ g.ids)
    (hnew : ∀ i ∈ List.range' k count, scheme.idAt d.edge.head (i + 1) ∉ g.ids) :
    (addMoves ((List.range' k count).flatMap (d.movesAt scheme)) g).ids
      = g.ids ++ (List.range' k count).map fun i => scheme.idAt d.edge.head (i + 1) := by
  -- The state before these is there, and each step makes the state before the next.
  induction count generalizing g k with
  | zero => simp [addMoves]
  | succ count ih =>
    rw [List.range'_succ, List.forall_mem_cons] at hnew
    have hids := ids_addMoves_movesAt hprev htargets hnew.1
    rw [List.range'_succ, List.flatMap_cons, addMoves_append, ih, hids, List.map_cons,
      List.append_assoc, List.singleton_append]
    · rw [hids]
      exact List.mem_append_right _ List.mem_cons_self
    · intro r hr
      rw [hids]
      exact List.mem_append_left _ (htargets r hr)
    · intro i hi
      rw [hids, List.mem_append, not_or, List.mem_singleton]
      refine ⟨hnew.2 i hi, fun he => ?_⟩
      have hik := scheme.idAt_injective d.edge.head he
      have hle := (List.mem_range'_1.1 hi).1
      omega

/-- **A chain adds its waiting states**, in order, and no other state. -/
theorem ids_addMoves_chain {g : Graph} (hhead : d.edge.head ∈ g.ids) (htail : d.edge.tail ∈ g.ids)
    (htargets : ∀ r ∈ d.edge.transition.redirects, r.target ∈ g.ids)
    (hnew : ∀ id ∈ d.waitingIds scheme, id ∉ g.ids) :
    (addMoves (d.chain scheme) g).ids = g.ids ++ d.waitingIds scheme := by
  have hids : (addMoves ((List.range (d.days - 1)).flatMap (d.movesAt scheme)) g).ids
      = g.ids ++ d.waitingIds scheme := by
    rw [Delayed.waitingIds, List.range_eq_range']
    refine ids_addMoves_flatMap_movesAt hhead htargets fun i hi => hnew _ ?_
    exact List.mem_map_of_mem (by rwa [List.range_eq_range'])
  rw [Delayed.chain, addMoves_append, ids_addMoves_of_mem, hids]
  intro m hm
  rw [List.mem_singleton.1 hm, hids]
  refine ⟨?_, List.mem_append_left _ htail⟩
  -- The last transition leaves the last waiting state, or the head if there is none.
  cases hn : d.days - 1 with
  | zero => exact List.mem_append_left _ hhead
  | succ n => exact List.mem_append_right _ (Delayed.mem_waitingIds.2 ⟨n, by omega, rfl⟩)

/-- **Chains one after the other** add their waiting states in order. -/
theorem ids_addMoves_chains {ds : List Delayed} {g : Graph}
    (hends : ∀ d ∈ ds, d.edge.head ∈ g.ids ∧ d.edge.tail ∈ g.ids)
    (htargets : ∀ d ∈ ds, ∀ r ∈ d.edge.transition.redirects, r.target ∈ g.ids)
    (hnodup : (ds.flatMap (Delayed.waitingIds scheme)).Nodup)
    (hnew : ∀ d ∈ ds, ∀ id ∈ d.waitingIds scheme, id ∉ g.ids) :
    (addMoves (ds.flatMap (Delayed.chain scheme)) g).ids
      = g.ids ++ ds.flatMap (Delayed.waitingIds scheme) := by
  induction ds generalizing g with
  | nil => simp [addMoves]
  | cons d ds ih =>
    rw [List.flatMap_cons, List.nodup_append] at hnodup
    obtain ⟨-, hnodup, hdisj⟩ := hnodup
    obtain ⟨hhead, htail⟩ := hends d List.mem_cons_self
    have hids := ids_addMoves_chain hhead htail (htargets d List.mem_cons_self)
      (hnew d List.mem_cons_self)
    have hkeep : ∀ {id}, id ∈ g.ids → id ∈ (addMoves (d.chain scheme) g).ids := by
      intro id hid
      rw [hids]
      exact List.mem_append_left _ hid
    rw [List.flatMap_cons, addMoves_append, ih, hids, List.flatMap_cons, List.append_assoc]
    · intro d' hd'
      obtain ⟨hh, ht⟩ := hends d' (List.mem_cons_of_mem _ hd')
      exact ⟨hkeep hh, hkeep ht⟩
    · exact fun d' hd' r hr => hkeep (htargets d' (List.mem_cons_of_mem _ hd') r hr)
    · exact hnodup
    · intro d' hd' id hid
      rw [hids, List.mem_append, not_or]
      refine ⟨hnew d' (List.mem_cons_of_mem _ hd') id hid, fun hm => ?_⟩
      exact hdisj id hm id (List.mem_flatMap.2 ⟨d', hd', hid⟩) rfl

/-! ## Setting properties -/

theorem ids_setWaiting {ws : List WaitingState} {g : Graph} (h : ∀ w ∈ ws, w.id ∈ g.ids) :
    (setWaiting ws g).ids = g.ids := by
  induction ws generalizing g with
  | nil => rfl
  | cons w ws ih =>
    have hids := Graph.ids_setProperties_of_mem w.properties (h w List.mem_cons_self)
    refine (ih fun v hv => ?_).trans hids
    rw [hids]
    exact h v (List.mem_cons_of_mem _ hv)

@[simp] theorem edges_setWaiting (ws : List WaitingState) (g : Graph) :
    (setWaiting ws g).edges = g.edges := by
  induction ws generalizing g with
  | nil => rfl
  | cons w ws ih => exact (ih _).trans (g.edges_setProperties _ _)

theorem properties?_setWaiting_of_not_mem {ws : List WaitingState} {g : Graph} {k : String}
    (h : k ∉ ws.map WaitingState.id) : (setWaiting ws g).properties? k = g.properties? k := by
  induction ws generalizing g with
  | nil => rfl
  | cons w ws ih =>
    rw [List.map_cons, List.mem_cons, not_or] at h
    exact (ih h.2).trans (Graph.properties?_setProperties_of_ne _ h.1)

/-- Each waiting state gets its properties, if no two of them have the same id. -/
theorem properties?_setWaiting_of_mem {ws : List WaitingState} {g : Graph}
    (hnodup : (ws.map WaitingState.id).Nodup) {w : WaitingState} (hw : w ∈ ws) :
    (setWaiting ws g).properties? w.id = some w.properties := by
  induction ws generalizing g with
  | nil => exact absurd hw List.not_mem_nil
  | cons v ws ih =>
    obtain ⟨hv, hnodup⟩ := List.nodup_cons.1 hnodup
    rcases List.mem_cons.1 hw with rfl | hm
    · exact (properties?_setWaiting_of_not_mem hv).trans (Graph.properties?_setProperties_self _ _ g)
    · exact ih hnodup hm

end Expansion
end GameContent
