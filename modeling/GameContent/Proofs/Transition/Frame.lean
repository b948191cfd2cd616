import GameContent.Proofs.Transition.Expandable

/-!
# `Proofs.Transition.Frame` — what an expansion keeps and what it adds

The three views of an expanded graph, each said from the graph alone: the states are those of the
graph and then the waiting states (`ids_expand`), the transitions are those without delay and then
the chains (`exists_edges_expand`), and of the properties only the descriptions of heads change
(`properties?_expand_head`, `properties?_expand_of_ne`). The waiting states have properties of their
own (`properties?_expand_waiting`).
-/

namespace GameContent
open Expansion

variable {scheme : IdScheme} {g g' : Graph}

/-! ## Waiting states and slots -/

/-- The waiting states of an expandable graph are new. -/
theorem Graph.Expandable.not_mem_ids (h : g.Expandable scheme) {d : Delayed} (hd : d ∈ delayed g)
    {id : String} (hid : id ∈ d.waitingIds scheme) : id ∉ g.ids := by
  obtain ⟨he, hn⟩ := mem_delayed_iff.1 hd
  have hfresh : ∀ id ∈ d.waitingIds scheme, id ∉ g.ids :=
    forall_mem_waitingIds.2 (h.fresh _ he _ hn)
  exact hfresh id hid

/-- The id of a waiting state of an expandable graph tells its chain and its number. -/
theorem Graph.Expandable.idAt_inj (h : g.Expandable scheme) {d d' : Delayed} (hd : d ∈ delayed g)
    (hd' : d' ∈ delayed g) {j k : Nat} (hj : j < d.days - 1) (hk : k < d'.days - 1)
    (he : scheme.idAt d.edge.head (j + 1) = scheme.idAt d'.edge.head (k + 1)) : d = d' ∧ j = k := by
  by_cases hheads : d.edge.head = d'.edge.head
  · obtain ⟨hde, hm⟩ := mem_delayed_iff.1 hd
    obtain ⟨hde', hn⟩ := mem_delayed_iff.1 hd'
    refine ⟨eq_of_mem_delayed_of_edge_eq hd hd' (h.heads _ hde _ hde' _ _ hm hn hheads), ?_⟩
    rw [← hheads] at he
    exact Nat.succ_inj.1 (scheme.idAt_injective _ he)
  · exfalso
    have hm : scheme.idAt d'.edge.head (k + 1) ∈ d.waitingIds scheme :=
      Delayed.mem_waitingIds.2 ⟨j, hj, he⟩
    have hm' : scheme.idAt d'.edge.head (k + 1) ∈ d'.waitingIds scheme :=
      Delayed.mem_waitingIds.2 ⟨k, hk, rfl⟩
    rcases Delayed.head_mem_waitingIds hheads hm hm' with hw | hw
    · exact h.not_mem_ids hd hw (head_mem_ids_of_mem_delayed hd')
    · exact h.not_mem_ids hd' hw (head_mem_ids_of_mem_delayed hd)

/-- No two waiting states of an expandable graph have the same id. -/
theorem Graph.Expandable.waitingIds_nodup (h : g.Expandable scheme) :
    ((delayed g).flatMap (Delayed.waitingIds scheme)).Nodup := by
  refine List.nodup_flatMap.2 ⟨fun d _ => d.waitingIds_nodup scheme, ?_⟩
  refine List.Pairwise.imp_of_mem ?_ (delayed_nodup g)
  intro d d' hd hd' hne id hid hid'
  obtain ⟨j, hj, rfl⟩ := Delayed.mem_waitingIds.1 hid
  obtain ⟨k, hk, he⟩ := Delayed.mem_waitingIds.1 hid'
  exact hne (h.idAt_inj hd hd' hj hk he.symm).1

/-- The transitions that are not in the slot of a delayed one are those without delay. -/
theorem filter_slot_ne_delayed (g : Graph) :
    (g.edges.filter fun e => ∀ d ∈ delayed g, e.slot ≠ d.edge.slot)
      = g.edges.filter fun e => e.transition.delay.isNone := by
  refine List.filter_congr fun e he => ?_
  rw [Bool.eq_iff_iff, decide_eq_true_iff, Option.isNone_iff_eq_none]
  constructor
  · intro hslots
    by_contra hdelay
    obtain ⟨n, hn⟩ := Option.ne_none_iff_exists'.1 hdelay
    exact hslots ⟨e, n⟩ (mem_delayed_iff.2 ⟨he, hn⟩) rfl
  · intro hdelay d hd hslot
    obtain ⟨hde, hn⟩ := mem_delayed_iff.1 hd
    -- Slots tell transitions apart, so this one would be delayed itself.
    rw [← Graph.eq_of_slot_eq he hde hslot, hdelay] at hn
    exact absurd hn (by simp)

/-! ## The views of an expanded graph -/

theorem moves_plan (scheme : IdScheme) (g : Graph) :
    (plan scheme g).moves = (delayed g).flatMap (Delayed.chain scheme) := by
  rw [plan, Plan.moves_foldl_unrolled]
  rfl

theorem map_id_waiting_plan (scheme : IdScheme) (g : Graph) :
    (plan scheme g).waiting.map WaitingState.id
      = (delayed g).flatMap (Delayed.waitingIds scheme) := by
  rw [plan, Plan.map_id_waiting_foldl_unrolled]
  rfl

/-- The states after the second round, when the chains are there. -/
theorem ids_addMoves_plan (h : g.Expandable scheme) :
    (addMoves (plan scheme g).moves (removeDelayed (delayed g) (plan scheme g).graph)).ids
      = g.ids ++ (delayed g).flatMap (Delayed.waitingIds scheme) := by
  have hids : (removeDelayed (delayed g) (plan scheme g).graph).ids = g.ids := by
    rw [ids_removeDelayed, plan, Plan.ids_foldl_unrolled]
  rw [moves_plan, ids_addMoves_chains ?_ ?_ h.waitingIds_nodup ?_, hids]
  all_goals rw [hids]
  · intro d hd
    have he := (mem_delayed_iff.1 hd).1
    exact ⟨Graph.head_mem_ids he, Graph.tail_mem_ids he⟩
  · intro d hd
    obtain ⟨he, hn⟩ := mem_delayed_iff.1 hd
    exact h.targets _ he _ hn
  · exact fun d hd id hid => h.not_mem_ids hd hid

/-- **States.** The waiting states come after those of the graph, chain by chain. -/
theorem ids_expand (h : g.expand scheme = .ok g') :
    g'.ids = g.ids ++ (delayed g).flatMap (Delayed.waitingIds scheme) := by
  obtain ⟨hg, rfl⟩ := expand_eq_ok_iff.1 h
  have hids := ids_addMoves_plan hg
  rw [Plan.apply_eq, ids_setWaiting, hids]
  intro w hw
  rw [hids, ← map_id_waiting_plan]
  exact List.mem_append_right _ (List.mem_map_of_mem hw)

/-- The states of a chain are there after the expansion. -/
theorem idAt_mem_ids_expand (h : g.expand scheme = .ok g') {e : Edge} (he : e ∈ g.edges) {n : Nat}
    (hn : e.transition.delay = some n) {k : Nat} (hk : k < n) : scheme.idAt e.head k ∈ g'.ids := by
  rw [ids_expand h]
  cases k with
  | zero => exact List.mem_append_left _ (Graph.head_mem_ids he)
  | succ k =>
    refine List.mem_append_right _ (List.mem_flatMap.2
      ⟨⟨e, n⟩, mem_delayed_iff.2 ⟨he, hn⟩, Delayed.mem_waitingIds.2 ⟨k, ?_, rfl⟩⟩)
    show k < n - 1
    omega

/-- **Transitions.** The chains come after the transitions without delay, which stay as they are. -/
theorem exists_edges_expand (h : g.expand scheme = .ok g') :
    ∃ added, g'.edges = (g.edges.filter fun e => e.transition.delay.isNone) ++ added
      ∧ added.map Edge.toMove = (delayed g).flatMap (Delayed.chain scheme) := by
  obtain ⟨-, rfl⟩ := expand_eq_ok_iff.1 h
  obtain ⟨added, hedges, hadded⟩ := exists_edges_addMoves (plan scheme g).moves
    (removeDelayed (delayed g) (plan scheme g).graph)
  refine ⟨added, ?_, ?_⟩
  · rw [Plan.apply_eq, edges_setWaiting, hedges, edges_removeDelayed, plan,
      Plan.edges_foldl_unrolled, filter_slot_ne_delayed]
  · rw [hadded, moves_plan]

/-- The properties of a state of the graph are those that it has in the plan. -/
theorem properties?_expand (h : g.expand scheme = .ok g') {id : String} (hid : id ∈ g.ids) :
    g'.properties? id = (plan scheme g).graph.properties? id := by
  obtain ⟨hg, rfl⟩ := expand_eq_ok_iff.1 h
  rw [Plan.apply_eq, properties?_setWaiting_of_not_mem, properties?_addMoves,
    properties?_removeDelayed]
  rw [map_id_waiting_plan, List.mem_flatMap]
  rintro ⟨d, hd, hm⟩
  exact hg.not_mem_ids hd hm hid

/-- **Properties.** The description of the head of a chain is set, if there is one. -/
theorem properties?_expand_head (h : g.expand scheme = .ok g') {d : Delayed} (hd : d ∈ delayed g) :
    g'.properties? d.edge.head = describedBag (descriptionText d.edge.transition.description d.days
      (g.properties? d.edge.head)) (g.properties? d.edge.head) := by
  have hhead := head_mem_ids_of_mem_delayed hd
  have hpair := pairwise_heads_iff.2 (expand_eq_ok_iff.1 h).1.heads
  rw [properties?_expand h hhead, plan]
  exact Plan.properties?_foldl_unrolled_head hpair hd hhead

/-- No other properties change. -/
theorem properties?_expand_of_ne (h : g.expand scheme = .ok g') {id : String} (hid : id ∈ g.ids)
    (hne : ∀ d ∈ delayed g, id ≠ d.edge.head) : g'.properties? id = g.properties? id := by
  rw [properties?_expand h hid, plan, Plan.properties?_foldl_unrolled_of_ne hne]

/-- The waiting states that the plan prepares, described against the heads of their chains in the
    expanded graph. -/
theorem waiting_plan (h : g.expand scheme = .ok g') :
    (plan scheme g).waiting
      = (delayed g).flatMap fun d => d.states scheme (g'.properties? d.edge.head) := by
  rw [plan, Plan.waiting_foldl_unrolled (pairwise_heads_iff.2 (expand_eq_ok_iff.1 h).1.heads)]
  refine (List.nil_append _).trans (List.flatMap_congr fun d hd => ?_)
  rw [properties?_expand_head h hd]
  rfl

/-- A waiting state has the properties that were prepared for it. -/
theorem properties?_expand_waiting (h : g.expand scheme = .ok g') {d : Delayed}
    (hd : d ∈ delayed g) {k : Nat} (hk : k < d.days - 1) :
    g'.properties? (scheme.idAt d.edge.head (k + 1))
      = some (d.stateAt scheme (g'.properties? d.edge.head) k).properties := by
  have hw : d.stateAt scheme (g'.properties? d.edge.head) k ∈ (plan scheme g).waiting := by
    rw [waiting_plan h]
    exact List.mem_flatMap.2 ⟨d, hd, List.mem_map_of_mem (List.mem_range.2 hk)⟩
  obtain ⟨hg, hg'⟩ := expand_eq_ok_iff.1 h
  have hnodup : ((plan scheme g).waiting.map WaitingState.id).Nodup := by
    rw [map_id_waiting_plan]
    exact hg.waitingIds_nodup
  have hset := properties?_setWaiting_of_mem hnodup hw
    (g := addMoves (plan scheme g).moves (removeDelayed (delayed g) (plan scheme g).graph))
  rw [← Plan.apply_eq, ← hg'] at hset
  exact hset

/-- A head with a template is described by the text of the template. -/
theorem properties?_expand_template (h : g.expand scheme = .ok g') {e : Edge} (he : e ∈ g.edges)
    {n : Nat} (hn : e.transition.delay = some n) {template : String}
    (ht : e.transition.description = some template) :
    ∃ text, Template.render template n (g.properties? e.head) = .ok text
      ∧ g'.properties? e.head
        = some (((g.properties? e.head).getD ∅).set "description" text) := by
  obtain ⟨text, htext⟩ := (expand_eq_ok_iff.1 h).1.describable e he n hn template ht
  have hhead := properties?_expand_head h (mem_delayed_iff.2 ⟨he, hn⟩ : ⟨e, n⟩ ∈ delayed g)
  rw [ht, descriptionText, Option.bind_some, htext] at hhead
  exact ⟨text, htext, hhead⟩

/-- **What an expansion keeps and adds, in order.** The states of the graph come first, then the
    waiting states; the transitions without delay come first, as they are, then the chains. A state
    keeps its properties unless it is the head of a chain with a template: its description is set
    then, in place or at the end. -/
theorem expand_frame (h : g.expand scheme = .ok g') :
    g'.ids = g.ids ++ (delayed g).flatMap (Delayed.waitingIds scheme)
      ∧ (∃ added, g'.edges = (g.edges.filter fun e => e.transition.delay.isNone) ++ added
        ∧ added.map Edge.toMove = (delayed g).flatMap (Delayed.chain scheme))
      ∧ (∀ id ∈ g.ids, (∀ e ∈ g.edges, e.head = id → ∀ n, e.transition.delay = some n →
          e.transition.description = none) → g'.properties? id = g.properties? id)
      ∧ ∀ e ∈ g.edges, ∀ n, e.transition.delay = some n →
        ∀ template, e.transition.description = some template →
          ∃ text bag, Template.render template n (g.properties? e.head) = .ok text
            ∧ g'.properties? e.head = some bag
            ∧ (∀ key, bag.get? key = if key = "description" then some (.str text)
                else ((g.properties? e.head).getD ∅).get? key)
            ∧ bag.keys = if "description" ∈ ((g.properties? e.head).getD ∅).keys
                then ((g.properties? e.head).getD ∅).keys
                else ((g.properties? e.head).getD ∅).keys ++ ["description"] := by
  refine ⟨ids_expand h, exists_edges_expand h, ?_, ?_⟩
  · intro id hid hnone
    by_cases hhead : ∃ d ∈ delayed g, d.edge.head = id
    · obtain ⟨d, hd, rfl⟩ := hhead
      obtain ⟨he, hn⟩ := mem_delayed_iff.1 hd
      rw [properties?_expand_head h hd, hnone _ he rfl _ hn]
      rfl
    · exact properties?_expand_of_ne h hid fun d hd heq => hhead ⟨d, hd, heq.symm⟩
  · intro e he n hn template ht
    obtain ⟨text, htext, hbag⟩ := properties?_expand_template h he hn ht
    exact ⟨text, _, htext, hbag, fun key => Properties.get?_set _ _ _ _, Properties.keys_set _ _ _⟩

/-- An egg that takes three days to hatch and can be smashed while it does. -/
def hatching : Edge :=
  ⟨"egg", "hen", ⟨.newDay, some 3, some .null, some "cluck", some "Hatches in \x7bdays\x7d days.",
    [⟨.smash, "yolk"⟩]⟩, 1⟩

/-- A hen that lays an egg on every other day, unless she is used. -/
def laying : Edge :=
  ⟨"hen", "egg", ⟨.newDay, some 2, none, some "cackle", none, [⟨.use, "hen"⟩]⟩, 0⟩

/-- The states of an egg. The egg was added before the hen, but the laying before the hatching. -/
def eggGraph : Graph :=
  (((((∅ : Graph).setProperties "egg" (.ofList [("description", "An egg."), ("color", "brown")])
    ).addTransition "hen" "egg" laying.transition
    ).addTransition "egg" "hen" hatching.transition
    ).addTransition "hen" "egg" (.on .use)
    ).addNode "yolk"

/-- The waiting states of the egg and their transitions come before those of the hen. -/
theorem expand_frame_eggGraph :
    ∃ g', eggGraph.expand .dayIndexed = .ok g'
      ∧ g'.ids = ["egg", "hen", "yolk", "egg__day1", "egg__day2", "hen__day1"]
      ∧ (g'.edges.map fun e => (e.head, e.tail, e.transition.trigger))
        = [("hen", "egg", .use), ("egg", "egg__day1", .newDay), ("egg__day1", "yolk", .smash),
          ("egg__day1", "egg__day2", .newDay), ("egg__day2", "yolk", .smash),
          ("egg__day2", "hen", .newDay), ("hen", "hen__day1", .newDay),
          ("hen__day1", "hen", .use), ("hen__day1", "egg", .newDay)]
      ∧ g'.properties? "hen" = none
      ∧ g'.properties? "yolk" = none
      ∧ ∃ bag, g'.properties? "egg" = some bag ∧ bag.keys = ["description", "color"] := by
  have hok : (eggGraph.expand .dayIndexed).isOk = true := by decide +kernel
  obtain ⟨g', h⟩ := exists_eq_ok_of_isOk hok
  obtain ⟨hids, ⟨added, hedges, hadded⟩, hkeep, hdescribe⟩ := expand_frame h
  have he : hatching ∈ eggGraph.edges := List.mem_cons_of_mem _ List.mem_cons_self
  have hmoves := congrArg (List.map fun m : Move => (m.head, m.tail, m.transition.trigger)) hadded
  rw [List.map_map] at hmoves
  obtain ⟨text, bag, -, hbag, -, hkeys⟩ := hdescribe hatching he 3 rfl _ rfl
  refine ⟨g', h, hids.trans (by decide +kernel), ?_, ?_, ?_, bag, hbag, hkeys.trans ?_⟩
  · rw [hedges, List.map_append]
    exact (congrArg _ hmoves).trans (by decide +kernel)
  · -- The hen has a delayed transition, but there is no description with it.
    rw [hkeep "hen" (by decide +kernel) (by decide +kernel)]
    rfl
  · rw [hkeep "yolk" (by decide +kernel) (by decide +kernel)]
    rfl
  · decide +kernel

end GameContent
