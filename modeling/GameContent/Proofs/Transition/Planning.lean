import GameContent.Proofs.Transition.Chain

/-!
# `Proofs.Transition.Planning` — the plan of an expansion, in closed form

The plan of an expansion is made chain by chain, with the plan so far at hand. Here it is said
without the running plan what the plan contains in the end and when it can be made.

## Contents
- `Plan.Accepts` says when a plan can take one more chain; `Plan.unroll_eq_ok_iff` is the step.
- `Plan.unrollAll_eq_ok_iff` is the run: the chains must have different heads, and then each of them
  need only be acceptable to the plan at the start (`Plan.accepts_unrolled_iff`).
- For each view of a plan, what one chain and what several chains do to it.
-/

namespace GameContent
namespace Expansion

theorem checkTargets_eq_ok_iff {g : Graph} {rs : List Redirect} :
    checkTargets g rs = .ok () ↔ ∀ r ∈ rs, r.target ∈ g.ids := by
  rw [checkTargets]
  cases hfind : rs.find? fun r => !g.contains r.target with
  | none => simpa [List.find?_eq_none, Graph.contains_iff] using hfind
  | some r =>
    have hr : r.target ∉ g.ids := by simpa [Graph.contains] using List.find?_some hfind
    simp only [reduceCtorEq, false_iff]
    exact fun hall => hr (hall r (List.mem_of_find?_eq_some hfind))

@[simp] theorem ids_describeNode (id : String) (text : Option String) (g : Graph) :
    (describeNode id text g).ids = g.ids := by
  cases text with
  | none => rfl
  | some text => exact Graph.ids_modifyProperties _ _ g

@[simp] theorem edges_describeNode (id : String) (text : Option String) (g : Graph) :
    (describeNode id text g).edges = g.edges := by
  cases text <;> rfl

theorem properties?_describeNode_self {id : String} {g : Graph} (text : Option String)
    (h : id ∈ g.ids) :
    (describeNode id text g).properties? id = describedBag text (g.properties? id) := by
  cases text with
  | none => rfl
  | some text => exact Graph.properties?_modifyProperties_self _ h

theorem properties?_describeNode_of_ne {id k : String} (text : Option String) (g : Graph)
    (h : k ≠ id) : (describeNode id text g).properties? k = g.properties? k := by
  cases text with
  | none => rfl
  | some text => exact Graph.properties?_modifyProperties_of_ne _ h

namespace Plan

/-- Whether a plan can take the chain of one more delayed transition. -/
structure Accepts (scheme : IdScheme) (plan : Plan) (d : Delayed) : Prop where
  /-- The redirects lead to states of the graph. -/
  targets : ∀ r ∈ d.edge.transition.redirects, r.target ∈ plan.graph.ids
  /-- The description can be rendered. -/
  describable : Describable d.edge.transition.description (plan.graph.properties? d.edge.head)
  /-- The ids of the waiting states are free. -/
  fresh : ∀ id ∈ d.waitingIds scheme, id ∉ plan.graph.ids ∧ id ∉ plan.waiting.map WaitingState.id

/-- The text that describes the head of a chain. -/
def headText (plan : Plan) (d : Delayed) : Option String :=
  descriptionText d.edge.transition.description d.days (plan.graph.properties? d.edge.head)

/-- The plan with the chain of one more delayed transition. -/
def unrolled (scheme : IdScheme) (plan : Plan) (d : Delayed) : Plan where
  graph := describeNode d.edge.head (plan.headText d) plan.graph
  waiting := plan.waiting
    ++ d.states scheme (describedBag (plan.headText d) (plan.graph.properties? d.edge.head))
  moves := plan.moves ++ d.chain scheme

variable {scheme : IdScheme} {plan plan' : Plan} {d : Delayed}

/-- **The step.** A chain is added exactly when the plan accepts it. -/
theorem unroll_eq_ok_iff (hhead : d.edge.head ∈ plan.graph.ids) (hdays : 1 < d.days) :
    plan.unroll scheme d = .ok plan' ↔ plan.Accepts scheme d ∧ plan' = plan.unrolled scheme d := by
  -- The waiting states are described against the head as its own description leaves it.
  have hbag := properties?_describeNode_self (plan.headText d) hhead
  have hstates (hdesc : Describable d.edge.transition.description
      (plan.graph.properties? d.edge.head)) (ws : List WaitingState) :
      waitingStates scheme (describeNode d.edge.head (plan.headText d) plan.graph) d
          (plan.waiting.map WaitingState.id) d.edge.head 1 (d.days - 1) = .ok ws
        ↔ (∀ id ∈ d.waitingIds scheme, id ∉ plan.graph.ids
            ∧ id ∉ plan.waiting.map WaitingState.id)
          ∧ ws = d.states scheme (describedBag (plan.headText d)
              (plan.graph.properties? d.edge.head)) := by
    have hiff := @waitingStates_eq_ok_iff scheme
      (describeNode d.edge.head (plan.headText d) plan.graph) d
      (hbag ▸ hdesc.describedBag _) (d.days - 1) (plan.waiting.map WaitingState.id) 0 ws (by omega)
    rw [hbag, ids_describeNode, ← List.range_eq_range'] at hiff
    rw [Delayed.waitingIds, List.forall_mem_map]
    exact hiff
  rw [unroll]
  constructor
  · intro h
    obtain ⟨_, htargets, h⟩ := bind_eq_ok_iff.1 h
    obtain ⟨text, htext, h⟩ := bind_eq_ok_iff.1 h
    obtain ⟨ws, hws, h⟩ := bind_eq_ok_iff.1 h
    obtain ⟨hdesc, rfl⟩ := description?_eq_ok_iff.1 htext
    obtain ⟨hfresh, rfl⟩ := (hstates hdesc ws).1 hws
    rw [pure_eq_ok_iff, Delayed.moves_states] at h
    exact ⟨⟨checkTargets_eq_ok_iff.1 htargets, hdesc, hfresh⟩, h⟩
  · rintro ⟨⟨htargets, hdesc, hfresh⟩, rfl⟩
    refine bind_eq_ok_iff.2 ⟨(), checkTargets_eq_ok_iff.2 htargets, ?_⟩
    refine bind_eq_ok_iff.2 ⟨_, description?_eq_ok_iff.2 ⟨hdesc, rfl⟩, ?_⟩
    refine bind_eq_ok_iff.2 ⟨_, (hstates hdesc _).2 ⟨hfresh, rfl⟩, ?_⟩
    rw [pure_eq_ok_iff, Delayed.moves_states]
    rfl

/-! ### The views of a plan with one more chain -/

@[simp] theorem ids_unrolled (scheme : IdScheme) (plan : Plan) (d : Delayed) :
    (plan.unrolled scheme d).graph.ids = plan.graph.ids :=
  ids_describeNode _ _ _

@[simp] theorem edges_unrolled (scheme : IdScheme) (plan : Plan) (d : Delayed) :
    (plan.unrolled scheme d).graph.edges = plan.graph.edges :=
  edges_describeNode _ _ _

theorem properties?_unrolled_of_ne {k : String} (h : k ≠ d.edge.head) :
    (plan.unrolled scheme d).graph.properties? k = plan.graph.properties? k :=
  properties?_describeNode_of_ne _ _ h

@[simp] theorem map_id_waiting_unrolled (scheme : IdScheme) (plan : Plan) (d : Delayed) :
    (plan.unrolled scheme d).waiting.map WaitingState.id
      = plan.waiting.map WaitingState.id ++ d.waitingIds scheme := by
  rw [unrolled, List.map_append, Delayed.map_id_states]

/-- **What the step leaves acceptable.** After one chain a plan accepts what it did before, other
    chains from the same head apart. -/
theorem accepts_unrolled_iff {d' : Delayed} (hd : plan.Accepts scheme d)
    (hhead : d.edge.head ∈ plan.graph.ids) (hhead' : d'.edge.head ∈ plan.graph.ids)
    (hdays : 1 < d.days) (hdays' : 1 < d'.days) :
    (plan.unrolled scheme d).Accepts scheme d'
      ↔ plan.Accepts scheme d' ∧ d.edge.head ≠ d'.edge.head := by
  constructor
  · intro h
    have hfresh : ∀ id ∈ d'.waitingIds scheme, id ∉ plan.graph.ids
        ∧ id ∉ plan.waiting.map WaitingState.id ∧ id ∉ d.waitingIds scheme := by
      intro id hid
      have hf := h.fresh id hid
      rw [ids_unrolled, map_id_waiting_unrolled, List.mem_append, not_or] at hf
      exact hf
    have hne : d.edge.head ≠ d'.edge.head := by
      intro he
      -- Both chains would begin with the same waiting state.
      have hfirst : scheme.idAt d'.edge.head 1 ∈ d'.waitingIds scheme :=
        Delayed.mem_waitingIds.2 ⟨0, by omega, rfl⟩
      exact (hfresh _ hfirst).2.2 (Delayed.mem_waitingIds.2 ⟨0, by omega, by rw [he]⟩)
    refine ⟨⟨?_, ?_, fun id hid => ⟨(hfresh id hid).1, (hfresh id hid).2.1⟩⟩, hne⟩
    · exact fun r hr => ids_unrolled scheme plan d ▸ h.targets r hr
    · rw [← properties?_unrolled_of_ne hne.symm]
      exact h.describable
  · rintro ⟨h, hne⟩
    refine ⟨?_, ?_, fun id hid => ⟨?_, ?_⟩⟩
    · exact fun r hr => (ids_unrolled scheme plan d).symm ▸ h.targets r hr
    · rw [properties?_unrolled_of_ne hne.symm]
      exact h.describable
    · rw [ids_unrolled]
      exact (h.fresh id hid).1
    · rw [map_id_waiting_unrolled, List.mem_append, not_or]
      refine ⟨(h.fresh id hid).2, fun hm => ?_⟩
      rcases Delayed.head_mem_waitingIds hne hm hid with hw | hw
      · exact (hd.fresh _ hw).1 hhead'
      · exact (h.fresh _ hw).1 hhead

/-- **The run.** Several chains can be added exactly when their heads differ and the plan accepts
    each of them. -/
theorem unrollAll_eq_ok_iff {ds : List Delayed}
    (hds : ∀ d ∈ ds, d.edge.head ∈ plan.graph.ids ∧ 1 < d.days) :
    unrollAll scheme plan ds = .ok plan'
      ↔ (∀ d ∈ ds, plan.Accepts scheme d) ∧ ds.Pairwise (fun d d' => d.edge.head ≠ d'.edge.head)
        ∧ plan' = ds.foldl (unrolled scheme) plan := by
  -- The plan at the start is whatever the chains before these have made of it.
  induction ds generalizing plan with
  | nil => simp [unrollAll, eq_comm]
  | cons d ds ih =>
    obtain ⟨hhead, hdays⟩ := hds d List.mem_cons_self
    have hrest : ∀ d' ∈ ds, d'.edge.head ∈ (plan.unrolled scheme d).graph.ids ∧ 1 < d'.days := by
      intro d' hd'
      rw [ids_unrolled]
      exact hds d' (List.mem_cons_of_mem _ hd')
    have hstep : unrollAll scheme plan (d :: ds) = .ok plan'
        ↔ plan.Accepts scheme d ∧ unrollAll scheme (plan.unrolled scheme d) ds = .ok plan' := by
      rw [unrollAll, bind_eq_ok_iff]
      constructor
      · rintro ⟨plan₁, hd, h⟩
        obtain ⟨ha, rfl⟩ := (unroll_eq_ok_iff hhead hdays).1 hd
        exact ⟨ha, h⟩
      · rintro ⟨ha, h⟩
        exact ⟨_, (unroll_eq_ok_iff hhead hdays).2 ⟨ha, rfl⟩, h⟩
    rw [hstep, ih hrest, List.forall_mem_cons, List.pairwise_cons, List.foldl_cons]
    constructor
    · rintro ⟨ha, hall, hpair, he⟩
      have hboth := fun d' (hd' : d' ∈ ds) => (accepts_unrolled_iff ha hhead
        (hds d' (List.mem_cons_of_mem _ hd')).1 hdays
        (hds d' (List.mem_cons_of_mem _ hd')).2).1 (hall d' hd')
      exact ⟨⟨ha, fun d' hd' => (hboth d' hd').1⟩, ⟨fun d' hd' => (hboth d' hd').2, hpair⟩, he⟩
    · rintro ⟨⟨ha, hall⟩, ⟨hne, hpair⟩, he⟩
      refine ⟨ha, fun d' hd' => ?_, hpair, he⟩
      exact (accepts_unrolled_iff ha hhead (hds d' (List.mem_cons_of_mem _ hd')).1 hdays
        (hds d' (List.mem_cons_of_mem _ hd')).2).2 ⟨hall d' hd', hne d' hd'⟩

/-! ### The views of a plan with several more chains -/

variable (scheme) in
@[simp] theorem ids_foldl_unrolled (ds : List Delayed) (plan : Plan) :
    (ds.foldl (unrolled scheme) plan).graph.ids = plan.graph.ids := by
  induction ds generalizing plan with
  | nil => rfl
  | cons d ds ih => rw [List.foldl_cons, ih, ids_unrolled]

variable (scheme) in
@[simp] theorem edges_foldl_unrolled (ds : List Delayed) (plan : Plan) :
    (ds.foldl (unrolled scheme) plan).graph.edges = plan.graph.edges := by
  induction ds generalizing plan with
  | nil => rfl
  | cons d ds ih => rw [List.foldl_cons, ih, edges_unrolled]

variable (scheme) in
theorem moves_foldl_unrolled (ds : List Delayed) (plan : Plan) :
    (ds.foldl (unrolled scheme) plan).moves
      = plan.moves ++ ds.flatMap (Delayed.chain scheme) := by
  induction ds generalizing plan with
  | nil => simp
  | cons d ds ih => rw [List.foldl_cons, ih, unrolled, List.flatMap_cons, List.append_assoc]

variable (scheme) in
theorem map_id_waiting_foldl_unrolled (ds : List Delayed) (plan : Plan) :
    (ds.foldl (unrolled scheme) plan).waiting.map WaitingState.id
      = plan.waiting.map WaitingState.id ++ ds.flatMap (Delayed.waitingIds scheme) := by
  induction ds generalizing plan with
  | nil => simp
  | cons d ds ih =>
    rw [List.foldl_cons, ih, map_id_waiting_unrolled, List.flatMap_cons, List.append_assoc]

/-- The waiting states of each chain are described against its head as that is described itself. -/
theorem waiting_foldl_unrolled {ds : List Delayed} {plan : Plan}
    (hpair : ds.Pairwise fun d d' => d.edge.head ≠ d'.edge.head) :
    (ds.foldl (unrolled scheme) plan).waiting
      = plan.waiting ++ ds.flatMap fun d => d.states scheme
          (describedBag (plan.headText d) (plan.graph.properties? d.edge.head)) := by
  induction ds generalizing plan with
  | nil => simp
  | cons d ds ih =>
    obtain ⟨hne, hpair⟩ := List.pairwise_cons.1 hpair
    -- This chain changes no other head.
    have hkeep : ∀ d' ∈ ds,
        (plan.unrolled scheme d).graph.properties? d'.edge.head
          = plan.graph.properties? d'.edge.head :=
      fun d' hd' => properties?_unrolled_of_ne (hne d' hd').symm
    have hlater : (ds.flatMap fun d' => d'.states scheme
          (describedBag ((plan.unrolled scheme d).headText d')
            ((plan.unrolled scheme d).graph.properties? d'.edge.head)))
        = ds.flatMap fun d' => d'.states scheme
          (describedBag (plan.headText d') (plan.graph.properties? d'.edge.head)) := by
      refine List.flatMap_congr fun d' hd' => ?_
      rw [headText, headText, hkeep d' hd']
    rw [List.foldl_cons, ih hpair, hlater, List.flatMap_cons, ← List.append_assoc]
    rfl

theorem properties?_foldl_unrolled_of_ne {ds : List Delayed} {plan : Plan} {k : String}
    (h : ∀ d ∈ ds, k ≠ d.edge.head) :
    (ds.foldl (unrolled scheme) plan).graph.properties? k = plan.graph.properties? k := by
  induction ds generalizing plan with
  | nil => rfl
  | cons d ds ih =>
    rw [List.foldl_cons, ih fun d' hd' => h d' (List.mem_cons_of_mem _ hd'),
      properties?_unrolled_of_ne (h d List.mem_cons_self)]

/-- The head of a chain is described by the text of that chain. -/
theorem properties?_foldl_unrolled_head {ds : List Delayed} {plan : Plan}
    (hpair : ds.Pairwise fun d d' => d.edge.head ≠ d'.edge.head) {d : Delayed} (hd : d ∈ ds)
    (hhead : d.edge.head ∈ plan.graph.ids) :
    (ds.foldl (unrolled scheme) plan).graph.properties? d.edge.head
      = describedBag (plan.headText d) (plan.graph.properties? d.edge.head) := by
  induction ds generalizing plan with
  | nil => exact absurd hd List.not_mem_nil
  | cons d₁ ds ih =>
    obtain ⟨hne, hpair⟩ := List.pairwise_cons.1 hpair
    rw [List.foldl_cons]
    rcases List.mem_cons.1 hd with rfl | hm
    · rw [properties?_foldl_unrolled_of_ne hne]
      exact properties?_describeNode_self _ hhead
    · rw [ih hpair hm (by rwa [ids_unrolled]), headText, headText,
        properties?_unrolled_of_ne (hne d hm).symm]

end Plan
end Expansion
end GameContent
