import GameContent.Proofs.Transition.Frame
import GameContent.Proofs.Transition.Run

/-!
# `Proofs.Transition.Timed` — an expansion means what the delays meant

A graph with delays is read as a system with clocks: while a delayed transition is under way, a
state is the transition together with the number of days that have passed. `Graph.timedArcs` gives
this system without mentioning waiting states or their ids, and the main result of the module says
that the expanded graph is the same system under the ids.

## Contents
- `TimedState` and `Graph.timedArcs` define the timed system.
- `bijOn_id`: the states of the timed system are those of the expanded graph.
- `map_timedArcs_perm`: so are the arcs.
- `expand_preserves_timed_system` puts both together with the runs.
-/

namespace GameContent
open Expansion

/-! ## The timed system of a graph -/

/-- A state of the timed system of a graph. -/
inductive TimedState where
  /-- A state of the graph. -/
  | node (id : String)
  /-- A delayed transition that is under way, after the given number of days. -/
  | underway (e : Edge) (day : Nat)

namespace TimedState

/-- Whether the timed system of a graph has the state. -/
def In (g : Graph) : TimedState → Prop
  | .node id => id ∈ g.ids
  | .underway e day => e ∈ g.edges ∧ ∃ n, e.transition.delay = some n ∧ 0 < day ∧ day < n

/-- The state on the given day of a delayed transition. It begins in its head. -/
def on (e : Edge) : Nat → TimedState
  | 0 => .node e.head
  | day + 1 => .underway e (day + 1)

/-- The id of the state in the expanded graph. -/
def id (scheme : IdScheme) : TimedState → String
  | .node id => id
  | .underway e day => scheme.idAt e.head day

@[simp] theorem id_on (scheme : IdScheme) (e : Edge) (day : Nat) :
    (on e day).id scheme = scheme.idAt e.head day := by
  cases day <;> rfl

end TimedState

/-- What remains to be shown on the last day of a delayed transition. A null is not spawned. -/
def Transition.lastLabel (t : Transition) : Label :=
  ⟨.newDay, t.spawn.filter (!·.isNull), t.action⟩

/-- The arcs of a transition that is delayed for `n` days: one for each day, and the redirects on
    all days but the first. -/
def Edge.delayedArcs (e : Edge) (n : Nat) : List (Arc TimedState) :=
  (List.range (n - 1)).map (fun day => ⟨.on e day, ⟨.newDay, none, none⟩, .on e (day + 1)⟩)
    ++ ⟨.on e (n - 1), e.transition.lastLabel, .node e.tail⟩ ::
    (List.range (n - 1)).flatMap fun day => e.transition.redirects.map fun r =>
      ⟨.on e (day + 1), ⟨r.trigger, none, none⟩, .node r.target⟩

/-- The arcs of one transition. -/
def Edge.timedArcs (e : Edge) : List (Arc TimedState) :=
  match e.transition.delay with
  | none => [⟨.node e.head, e.transition.label, .node e.tail⟩]
  | some n => e.delayedArcs n

/-- The arcs of the timed system of a graph. -/
def Graph.timedArcs (g : Graph) : List (Arc TimedState) :=
  g.edges.flatMap Edge.timedArcs

variable {scheme : IdScheme} {g g' : Graph}

/-! ## States -/

theorem TimedState.in_on {e : Edge} (he : e ∈ g.edges) {n : Nat} (hn : e.transition.delay = some n)
    {day : Nat} (hlt : day < n) : (TimedState.on e day).In g := by
  cases day with
  | zero => exact Graph.head_mem_ids he
  | succ day => exact ⟨he, n, hn, Nat.succ_pos _, hlt⟩

/-- The states of the timed system that are under way, by their delayed transitions. -/
theorem TimedState.in_underway_iff {e : Edge} {day : Nat} :
    (TimedState.underway e day).In g
      ↔ ∃ d ∈ delayed g, d.edge = e ∧ ∃ k < d.days - 1, day = k + 1 := by
  constructor
  · rintro ⟨he, n, hn, hpos, hlt⟩
    exact ⟨⟨e, n⟩, mem_delayed_iff.2 ⟨he, hn⟩, rfl, day - 1, by show _ < n - 1; omega, by omega⟩
  · rintro ⟨d, hd, rfl, k, hk, rfl⟩
    obtain ⟨he, hn⟩ := mem_delayed_iff.1 hd
    exact ⟨he, d.days, hn, Nat.succ_pos k, by omega⟩

/-- Different states of the timed system have different ids. -/
theorem Graph.Expandable.injOn_id (h : g.Expandable scheme) :
    {s | TimedState.In g s}.InjOn (TimedState.id scheme) := by
  -- A waiting state is never a state of the graph.
  have hnew : ∀ {id e day}, id ∈ g.ids → (TimedState.underway e day).In g →
      id ≠ scheme.idAt e.head day := by
    rintro id e day hid hs rfl
    obtain ⟨d, hd, rfl, k, hk, rfl⟩ := TimedState.in_underway_iff.1 hs
    exact h.not_mem_ids hd (Delayed.mem_waitingIds.2 ⟨k, hk, rfl⟩) hid
  intro s hs t ht he
  cases s with
  | node a =>
    cases t with
    | node b => exact congrArg TimedState.node he
    | underway f day => exact absurd he (hnew hs ht)
  | underway e day =>
    cases t with
    | node b => exact absurd he.symm (hnew ht hs)
    | underway f day' =>
      obtain ⟨d, hd, rfl, j, hj, rfl⟩ := TimedState.in_underway_iff.1 hs
      obtain ⟨d', hd', rfl, k, hk, rfl⟩ := TimedState.in_underway_iff.1 ht
      obtain ⟨rfl, rfl⟩ := h.idAt_inj hd hd' hj hk he
      rfl

/-- **The states agree.** Ids are a bijection from the timed system to the expanded graph. -/
theorem bijOn_id (h : g.expand scheme = .ok g') :
    Set.BijOn (TimedState.id scheme) {s | TimedState.In g s} {id | id ∈ g'.ids} := by
  refine ⟨?_, (expand_eq_ok_iff.1 h).1.injOn_id, ?_⟩
  · intro s hs
    show s.id scheme ∈ g'.ids
    rw [ids_expand h, List.mem_append, List.mem_flatMap]
    cases s with
    | node a => exact Or.inl hs
    | underway e day =>
      obtain ⟨d, hd, rfl, k, hk, rfl⟩ := TimedState.in_underway_iff.1 hs
      exact Or.inr ⟨d, hd, Delayed.mem_waitingIds.2 ⟨k, hk, rfl⟩⟩
  · intro id hid
    have hmem : id ∈ g'.ids := hid
    rw [ids_expand h, List.mem_append, List.mem_flatMap] at hmem
    rcases hmem with hm | ⟨d, hd, hm⟩
    · exact ⟨.node id, hm, rfl⟩
    · obtain ⟨k, hk, rfl⟩ := Delayed.mem_waitingIds.1 hm
      exact ⟨.underway d.edge (k + 1), TimedState.in_underway_iff.2 ⟨d, hd, rfl, k, hk, rfl⟩, rfl⟩

/-! ## Arcs -/

/-- The arcs of the timed system lead from state to state. -/
theorem Graph.Expandable.ends_timedArcs (h : g.Expandable scheme) :
    ∀ a ∈ g.timedArcs, a.source.In g ∧ a.target.In g := by
  intro a ha
  obtain ⟨e, he, ha⟩ := List.mem_flatMap.1 ha
  have htail : (TimedState.node e.tail).In g := Graph.tail_mem_ids he
  rw [Edge.timedArcs] at ha
  cases hn : e.transition.delay with
  | none =>
    rw [hn, List.mem_singleton] at ha
    rw [ha]
    exact ⟨Graph.head_mem_ids he, htail⟩
  | some n =>
    have hdays : 1 < n := (Transition.delay_eq_some_iff.1 hn).2
    rw [hn] at ha
    rcases List.mem_append.1 ha with hm | hm
    · obtain ⟨day, hday, rfl⟩ := List.mem_map.1 hm
      have hlt : day + 1 < n := Nat.add_lt_of_lt_sub (List.mem_range.1 hday)
      exact ⟨TimedState.in_on he hn (Nat.lt_of_succ_lt hlt), TimedState.in_on he hn hlt⟩
    · rcases List.mem_cons.1 hm with rfl | hm
      · exact ⟨TimedState.in_on he hn (by omega), htail⟩
      · obtain ⟨day, hday, hm⟩ := List.mem_flatMap.1 hm
        obtain ⟨r, hr, rfl⟩ := List.mem_map.1 hm
        have hlt : day + 1 < n := Nat.add_lt_of_lt_sub (List.mem_range.1 hday)
        exact ⟨TimedState.in_on he hn hlt, h.targets e he n hn r hr⟩

/-- A transition that is to be added, as an arc. -/
def Expansion.Move.arc (m : Move) : Arc String := ⟨m.head, m.transition.label, m.tail⟩

/-- The arcs of one delayed transition are those of its chain, in another order. -/
theorem map_delayedArcs_perm (scheme : IdScheme) (d : Delayed) :
    ((d.edge.delayedArcs d.days).map (Arc.map (TimedState.id scheme))).Perm
      ((d.chain scheme).map Move.arc) := by
  have hchain : (d.chain scheme).map Move.arc
      = ((List.range (d.days - 1)).flatMap fun day =>
          ⟨scheme.idAt d.edge.head day, ⟨.newDay, none, none⟩, scheme.idAt d.edge.head (day + 1)⟩ ::
            d.edge.transition.redirects.map fun r =>
              ⟨scheme.idAt d.edge.head (day + 1), ⟨r.trigger, none, none⟩, r.target⟩)
        ++ [⟨scheme.idAt d.edge.head (d.days - 1), d.edge.transition.lastLabel, d.edge.tail⟩] := by
    rw [Delayed.chain, List.map_append, List.map_flatMap]
    simp only [Delayed.movesAt, List.map_cons, List.map_map]
    rfl
  rw [hchain, Edge.delayedArcs, List.map_append, List.map_cons, List.map_flatMap]
  simp only [List.map_map, Function.comp_def, Arc.map, TimedState.id_on]
  -- The last day moves to the end, and the redirects of each day to that day.
  refine List.perm_middle.trans ?_
  refine ((List.map_append_flatMap_perm _ _ _).cons _).trans ?_
  exact (List.perm_append_singleton _ _).symm

/-- The arcs of several transitions, those without delay first. -/
theorem map_flatMap_timedArcs_perm (scheme : IdScheme) (es : List Edge) :
    ((es.flatMap Edge.timedArcs).map (Arc.map (TimedState.id scheme))).Perm
      ((es.filter fun e => e.transition.delay.isNone).map Edge.arc
        ++ ((es.filterMap fun e => e.transition.delay.map (⟨e, ·⟩)).flatMap
            (Delayed.chain scheme)).map Move.arc) := by
  -- One transition adds its arcs to one of the two parts.
  induction es with
  | nil => exact List.Perm.refl _
  | cons e es ih =>
    rw [List.flatMap_cons, List.map_append]
    cases hn : e.transition.delay with
    | none =>
      have harc : e.timedArcs.map (Arc.map (TimedState.id scheme)) = [e.arc] := by
        rw [Edge.timedArcs, hn]
        rfl
      rw [harc, List.filter_cons_of_pos (by rw [hn]; rfl),
        List.filterMap_cons_none (by rw [hn]; rfl)]
      exact ih.cons _
    | some n =>
      have harcs := map_delayedArcs_perm scheme ⟨e, n⟩
      have htimed : e.timedArcs = e.delayedArcs n := by rw [Edge.timedArcs, hn]
      rw [htimed, List.filter_cons_of_neg (by rw [hn]; simp),
        List.filterMap_cons_some (by rw [hn]; rfl), List.flatMap_cons, List.map_append]
      exact (harcs.append ih).trans (List.perm_append_comm_assoc _ _ _)

/-- **The arcs agree.** Under their ids the arcs of the timed system are those of the expanded
    graph, each as many times. -/
theorem map_timedArcs_perm (h : g.expand scheme = .ok g') :
    (g.timedArcs.map (Arc.map (TimedState.id scheme))).Perm g'.arcs := by
  obtain ⟨added, hedges, hadded⟩ := exists_edges_expand h
  have harcs : g'.arcs = (g.edges.filter fun e => e.transition.delay.isNone).map Edge.arc
      ++ ((delayed g).flatMap (Delayed.chain scheme)).map Move.arc := by
    rw [Graph.arcs, hedges, List.map_append, ← hadded, List.map_map]
    rfl
  rw [harcs]
  refine (map_flatMap_timedArcs_perm scheme g.edges).trans (List.Perm.append_left _ ?_)
  exact ((delayed_perm g).symm.flatMap_right _).map _

/-- **Expansion preserves the timed system.** Ids are a bijection from the states of the timed
    system of a graph to those of the expanded graph. They take the arcs of the one to the arcs of
    the other, each as many times. So what can be seen between two states of the graph is the
    same. -/
theorem expand_preserves_timed_system (h : g.expand scheme = .ok g') :
    Set.BijOn (TimedState.id scheme) {s | TimedState.In g s} {id | id ∈ g'.ids}
      ∧ (g.timedArcs.map (Arc.map (TimedState.id scheme))).Perm g'.arcs
      ∧ ∀ a ∈ g.ids, ∀ b ∈ g.ids,
        (∀ ls, Run g.timedArcs (.node a) ls (.node b) ↔ Run g'.arcs a ls b)
          ∧ ∀ word, Leads g.timedArcs (.node a) word (.node b) ↔ Leads g'.arcs a word b := by
  obtain ⟨hg, -⟩ := expand_eq_ok_iff.1 h
  have hperm := map_timedArcs_perm h
  refine ⟨bijOn_id h, hperm, fun a ha b hb => ?_⟩
  have ha' : TimedState.node a ∈ {s | TimedState.In g s} := ha
  have hb' : TimedState.node b ∈ {s | TimedState.In g s} := hb
  have hrun : ∀ ls, Run g.timedArcs (.node a) ls (.node b) ↔ Run g'.arcs a ls b := fun ls =>
    run_map_iff hg.injOn_id hg.ends_timedArcs hperm ha' hb'
  exact ⟨hrun, fun word => exists_congr fun ls => and_congr_left' (hrun ls)⟩

/-- An egg can be smashed two days before it hatches. -/
theorem expand_preserves_timed_system_eggGraph :
    ∃ g', eggGraph.expand .suffix = .ok g' ∧ g'.arcs.length = eggGraph.timedArcs.length
      ∧ Leads g'.arcs "egg" [.newDay, .smash] "yolk" := by
  have hok : (eggGraph.expand .suffix).isOk = true := by decide +kernel
  obtain ⟨g', h⟩ := exists_eq_ok_of_isOk hok
  obtain ⟨-, hperm, hruns⟩ := expand_preserves_timed_system h
  obtain ⟨-, hleads⟩ := hruns "egg" (by decide +kernel) "yolk" (by decide +kernel)
  refine ⟨g', h, by rw [← hperm.length_eq, List.length_map], (hleads _).1 ?_⟩
  have he : hatching ∈ eggGraph.edges := List.mem_cons_of_mem _ List.mem_cons_self
  have hday : ⟨.on hatching 0, ⟨.newDay, none, none⟩, .on hatching 1⟩ ∈ eggGraph.timedArcs :=
    List.mem_flatMap.2 ⟨hatching, he, .head _⟩
  have hsmash : ⟨.on hatching 1, ⟨.smash, none, none⟩, .node "yolk"⟩ ∈ eggGraph.timedArcs :=
    List.mem_flatMap.2 ⟨hatching, he, .tail _ (.tail _ (.tail _ (.head _)))⟩
  exact ⟨_, Run.cons hday (Run.cons hsmash (Run.nil _)), rfl⟩

end GameContent
