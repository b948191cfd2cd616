import GameContent.Proofs.Transition.Compilation
import GameContent.Proofs.Transition.Frame

/-!
# `Proofs.Transition.WaitingReactions` — what a waiting state becomes when it is compiled

An expansion adds the transitions of a chain day by day: the one into a waiting state, then the
redirects out of it. So the transitions out of a waiting state are the redirects and after them the
passing of the day (`map_toMove_outgoing_expand`). Compiling keeps the first transition to each
target. Hence of several redirects to one target the first counts, and the last day is lost if a
redirect leads to the tail.

## Contents
- `Delayed.exits` are the transitions out of a state of a chain, `Delayed.chain_eq` puts a chain
  together from them.
- `redirectReactions` and `dayReactions` are the reactions of a waiting state;
  `subrecords_waiting` says that they are.
-/

namespace GameContent
open Expansion

variable {scheme : IdScheme} {g g' : Graph}

/-! ## Chains, state by state -/

/-- A list of beginnings and continuations, regrouped so that each continuation comes before the
    next beginning. -/
theorem flatMap_cons_concat_eq {α : Type} (a : Nat → α) (b : Nat → List α) (n : Nat) :
    (List.range n).flatMap (fun j => a j :: b j) ++ [a n]
      = a 0 :: (List.range n).flatMap fun j => b j ++ [a (j + 1)] := by
  induction n with
  | zero => rfl
  | succ n ih =>
    rw [List.range_succ, List.flatMap_append, List.flatMap_append, List.flatMap_singleton,
      List.flatMap_singleton, ← List.cons_append, ← ih]
    simp only [List.append_assoc, List.cons_append, List.nil_append]

/-- If only one part of a list can pass a test, the others can be left out. -/
theorem filter_flatMap_eq_filter {α β : Type} {f : α → List β} {p : β → Bool} {as : List α} {a : α}
    (has : as.Nodup) (ha : a ∈ as) (h : ∀ c ∈ as, c ≠ a → ∀ b ∈ f c, p b = false) :
    (as.flatMap f).filter p = (f a).filter p := by
  obtain ⟨before, after, rfl⟩ := List.append_of_mem ha
  obtain ⟨-, hafter, hbefore⟩ := List.nodup_append.1 has
  have hnil : ∀ cs : List α, (∀ c ∈ cs, c ∈ before ++ a :: after ∧ c ≠ a) →
      (cs.flatMap f).filter p = [] := by
    intro cs hcs
    rw [List.filter_eq_nil_iff]
    intro b hb
    obtain ⟨c, hc, hbc⟩ := List.mem_flatMap.1 hb
    simpa using h c (hcs c hc).1 (hcs c hc).2 b hbc
  rw [List.flatMap_append, List.flatMap_cons, List.filter_append, List.filter_append,
    hnil before fun c hc => ⟨List.mem_append_left _ hc, hbefore c hc a List.mem_cons_self⟩,
    hnil after fun c hc => ⟨List.mem_append_right _ (List.mem_cons_of_mem _ hc), ?_⟩,
    List.nil_append, List.append_nil]
  rintro rfl
  exact (List.nodup_cons.1 hafter).1 hc

namespace Expansion.Delayed

/-- The transition out of the `k`-th state of a chain when a day passes. -/
def dayMove (scheme : IdScheme) (d : Delayed) (k : Nat) : Move :=
  if k + 1 < d.days then
    ⟨scheme.idAt d.edge.head k, scheme.idAt d.edge.head (k + 1), .on .newDay⟩
  else ⟨scheme.idAt d.edge.head k, d.edge.tail, arrival d.edge.transition⟩

/-- The transitions out of the `k`-th state of a chain by redirects. -/
def redirectMoves (scheme : IdScheme) (d : Delayed) (k : Nat) : List Move :=
  d.edge.transition.redirects.map fun r =>
    ⟨scheme.idAt d.edge.head k, r.target, .on r.trigger⟩

/-- The transitions out of the `k`-th waiting state of a chain. -/
def exits (scheme : IdScheme) (d : Delayed) (k : Nat) : List Move :=
  d.redirectMoves scheme k ++ [d.dayMove scheme k]

theorem head_dayMove (scheme : IdScheme) (d : Delayed) (k : Nat) :
    (d.dayMove scheme k).head = scheme.idAt d.edge.head k := by
  unfold dayMove
  split <;> rfl

theorem head_of_mem_exits {d : Delayed} {k : Nat} {m : Move} (h : m ∈ d.exits scheme k) :
    m.head = scheme.idAt d.edge.head k := by
  rcases List.mem_append.1 h with h | h
  · obtain ⟨r, -, rfl⟩ := List.mem_map.1 h
    rfl
  · rw [List.mem_singleton.1 h, head_dayMove]

/-- **A chain, state by state.** A day passes at the head; then come the transitions out of each
    waiting state. -/
theorem chain_eq {d : Delayed} (hdays : 0 < d.days) :
    d.chain scheme
      = d.dayMove scheme 0 ::
          (List.range (d.days - 1)).flatMap fun k => d.exits scheme (k + 1) := by
  have hlast : Move.mk (scheme.idAt d.edge.head (d.days - 1)) d.edge.tail
      (arrival d.edge.transition) = d.dayMove scheme (d.days - 1) := by
    rw [dayMove, if_neg (by omega)]
  have hmoves : (List.range (d.days - 1)).flatMap (d.movesAt scheme)
      = (List.range (d.days - 1)).flatMap fun k =>
          d.dayMove scheme k :: d.redirectMoves scheme (k + 1) := by
    refine List.flatMap_congr fun k hk => ?_
    have hlt : k + 1 < d.days := by
      have := List.mem_range.1 hk
      omega
    rw [movesAt, dayMove, if_pos hlt, redirectMoves]
  rw [chain, hmoves, hlast, flatMap_cons_concat_eq]
  rfl

/-- The transitions of a chain leave its head or one of its waiting states. -/
theorem head_of_mem_chain {d : Delayed} (hdays : 0 < d.days) {m : Move}
    (h : m ∈ d.chain scheme) : m.head = d.edge.head ∨ m.head ∈ d.waitingIds scheme := by
  rw [chain_eq hdays] at h
  rcases List.mem_cons.1 h with rfl | h
  · exact .inl (head_dayMove scheme d 0)
  · obtain ⟨k, hk, hm⟩ := List.mem_flatMap.1 h
    rw [head_of_mem_exits hm]
    exact .inr (mem_waitingIds.2 ⟨k, List.mem_range.1 hk, rfl⟩)

/-- Of a chain, the transitions out of a waiting state are its exits. -/
theorem filter_head_chain {d : Delayed} {k : Nat} (hk : k < d.days - 1) :
    (d.chain scheme).filter (fun m => m.head = scheme.idAt d.edge.head (k + 1))
      = d.exits scheme (k + 1) := by
  have hexits : ∀ j, ∀ m ∈ d.exits scheme (j + 1),
      m.head = scheme.idAt d.edge.head (k + 1) → j = k := by
    intro j m hm he
    rw [head_of_mem_exits hm] at he
    exact Nat.succ_inj.1 (scheme.idAt_injective _ he)
  have hhead : (d.dayMove scheme 0).head ≠ scheme.idAt d.edge.head (k + 1) := by
    rw [head_dayMove]
    exact (scheme.idAt_succ_ne_head d.edge.head k).symm
  rw [chain_eq (by omega), List.filter_cons_of_neg (by simpa using hhead),
    filter_flatMap_eq_filter List.nodup_range (List.mem_range.2 hk), List.filter_eq_self]
  · intro m hm
    simpa using head_of_mem_exits hm
  · intro j _ hj m hm
    simpa using fun he => hj (hexits j m hm he)

end Expansion.Delayed

/-! ## The transitions out of a waiting state -/

/-- Of all chains, the transitions out of a waiting state are the exits of its own chain. -/
theorem Graph.Expandable.filter_head_chains (hg : g.Expandable scheme) {d : Delayed}
    (hd : d ∈ delayed g) {k : Nat} (hk : k < d.days - 1) :
    ((delayed g).flatMap (Delayed.chain scheme)).filter
        (fun m => m.head = scheme.idAt d.edge.head (k + 1))
      = d.exits scheme (k + 1) := by
  have hnew := hg.not_mem_ids hd (Delayed.mem_waitingIds.2 ⟨k, hk, rfl⟩)
  rw [filter_flatMap_eq_filter (delayed_nodup g) hd, Delayed.filter_head_chain hk]
  intro d' hd' hne m hm
  rw [decide_eq_false_iff_not]
  intro he
  have hdays := one_lt_days_of_mem_delayed hd'
  rcases Delayed.head_of_mem_chain (by omega) hm with hhead | hwaiting
  · exact hnew (he ▸ hhead ▸ head_mem_ids_of_mem_delayed hd')
  · obtain ⟨j, hj, hid⟩ := Delayed.mem_waitingIds.1 hwaiting
    exact hne (hg.idAt_inj hd' hd hj hk (hid.trans he)).1

/-- The transitions out of a waiting state of an expanded graph are the exits of its chain. -/
theorem map_toMove_outgoing_expand (h : g.expand scheme = .ok g') {d : Delayed}
    (hd : d ∈ delayed g) {k : Nat} (hk : k < d.days - 1) :
    (g'.outgoing (scheme.idAt d.edge.head (k + 1))).map Edge.toMove = d.exits scheme (k + 1) := by
  have hg := (expand_eq_ok_iff.1 h).1
  obtain ⟨added, hedges, hadded⟩ := exists_edges_expand h
  -- The transitions that were there before leave states of the graph.
  have hold : (g.edges.filter fun e => e.transition.delay.isNone).filter
      (fun e => e.head = scheme.idAt d.edge.head (k + 1)) = [] := by
    rw [List.filter_eq_nil_iff]
    intro e he hhead
    have hmem := Graph.head_mem_ids (List.mem_filter.1 he).1
    rw [of_decide_eq_true hhead] at hmem
    exact hg.not_mem_ids hd (Delayed.mem_waitingIds.2 ⟨k, hk, rfl⟩) hmem
  have hmap : (added.filter fun e => e.head = scheme.idAt d.edge.head (k + 1)).map Edge.toMove
      = (added.map Edge.toMove).filter fun m => m.head = scheme.idAt d.edge.head (k + 1) := by
    rw [List.filter_map]
    rfl
  rw [Graph.outgoing, hedges, List.filter_append, hold, List.nil_append, hmap, hadded,
    hg.filter_head_chains hd hk]

/-! ## Nothing is left to expand -/

/-- No transition of a chain is delayed. -/
theorem Expansion.Delayed.delay_of_mem_chain {d : Delayed} {m : Move} (h : m ∈ d.chain scheme) :
    m.transition.delay = none := by
  rcases List.mem_append.1 h with h | h
  · obtain ⟨k, -, hm⟩ := List.mem_flatMap.1 h
    rcases List.mem_cons.1 hm with rfl | hm
    · rfl
    · obtain ⟨r, -, rfl⟩ := List.mem_map.1 hm
      rfl
  · rw [List.mem_singleton.1 h]
    rfl

/-- Neither is any other transition of an expanded graph. -/
theorem delay_of_mem_edges_expand (h : g.expand scheme = .ok g') {e : Edge} (he : e ∈ g'.edges) :
    e.transition.delay = none := by
  obtain ⟨added, hedges, hadded⟩ := exists_edges_expand h
  rw [hedges] at he
  rcases List.mem_append.1 he with he | he
  · exact Option.isNone_iff_eq_none.1 (List.mem_filter.1 he).2
  · have hm : e.toMove ∈ (delayed g).flatMap (Delayed.chain scheme) :=
      hadded ▸ List.mem_map_of_mem he
    obtain ⟨d, -, hchain⟩ := List.mem_flatMap.1 hm
    exact Delayed.delay_of_mem_chain hchain

/-! ## Reactions -/

/-- The reactions to redirects: for each target, in the order in which the targets first occur, one
    to the first trigger that leads there. -/
def redirectReactions (rs : List Redirect) : List Record :=
  (rs.map Redirect.target).eraseDups.filterMap fun target =>
    (rs.find? fun r => r.target = target).map fun r => Graph.reaction r.trigger target .null none

/-- The reactions to a new day in the `k`-th waiting state of a transition that takes `n` days: to
    wait on, or on the last day to arrive, unless a redirect leads to the tail. -/
def dayReactions (scheme : IdScheme) (e : Edge) (n k : Nat) : List Record :=
  if k + 1 < n then [Graph.reaction .newDay (scheme.idAt e.head (k + 1)) .null none]
  else if e.tail ∈ e.transition.redirects.map Redirect.target then []
  else [Graph.reaction .newDay e.tail (e.transition.spawn.getD .null) e.transition.action]

theorem redirectReactions_eq (rs : List Redirect) :
    redirectReactions rs
      = (firstOccurrences Redirect.target [] rs).map fun r =>
          Graph.reaction r.trigger r.target .null none := by
  rw [redirectReactions, firstOccurrences_eq, List.map_filterMap]
  simp only [List.not_mem_nil, not_false_eq_true, decide_true, List.filter_true]
  refine List.filterMap_congr fun target _ => ?_
  cases hfind : rs.find? fun r => r.target = target with
  | none => rfl
  | some r =>
    have htarget : r.target = target := by simpa using List.find?_some hfind
    rw [Option.map_some, Option.map_some, htarget]

/-- One more redirect adds its reaction, unless an earlier one leads to its target. -/
theorem redirectReactions_concat (rs : List Redirect) (r : Redirect) :
    redirectReactions (rs ++ [r])
      = redirectReactions rs ++ if r.target ∈ rs.map Redirect.target then []
        else [Graph.reaction r.trigger r.target .null none] := by
  rw [redirectReactions_eq, redirectReactions_eq, firstOccurrences_concat, List.map_append]
  split <;> rfl

/-- The first redirects give the first reactions. -/
theorem redirectReactions_prefix (rs ss : List Redirect) :
    redirectReactions rs <+: redirectReactions (rs ++ ss) := by
  rw [redirectReactions_eq, redirectReactions_eq, firstOccurrences_append, List.map_append]
  exact List.prefix_append _ _

/-- A redirect adds no reaction exactly when an earlier one leads to its target. -/
theorem redirectReactions_concat_eq_self_iff {rs : List Redirect} {r : Redirect} :
    redirectReactions (rs ++ [r]) = redirectReactions rs ↔ ∃ s ∈ rs, s.target = r.target := by
  rw [redirectReactions_concat, ← List.mem_map]
  by_cases hmem : r.target ∈ rs.map Redirect.target
  · rw [if_pos hmem, List.append_nil]
    exact iff_of_true rfl hmem
  · rw [if_neg hmem]
    exact iff_of_false (by simp) hmem

/-- A null is not spawned. -/
theorem getD_spawn_arrival (t : Transition) :
    (arrival t).spawn.getD .null = t.spawn.getD .null := by
  show (t.spawn.filter (!·.isNull)).getD .null = _
  cases t.spawn with
  | none => rfl
  | some v => cases v <;> rfl

/-- The reaction that a transition becomes. -/
def Expansion.Move.reaction (m : Move) : Record :=
  Graph.reaction m.transition.trigger m.tail (m.transition.spawn.getD .null) m.transition.action

/-- The reactions of an item, said of the transitions out of its state without their places. -/
theorem subrecords_itemOf_eq (g : Graph) (id : String) :
    (g.itemOf id).subrecords
      = (firstOccurrences Move.tail [] ((g.outgoing id).map Edge.toMove)).map Move.reaction := by
  rw [Graph.subrecords_itemOf, ← map_firstOccurrences fun _ => rfl, List.map_map]
  exact List.map_congr_left fun e _ => Graph.reactionOf_eq e

/-- The exits that count: the redirects that do, and the passing of the day if no redirect leads
    where it leads. -/
theorem Expansion.Delayed.map_reaction_exits (scheme : IdScheme) (d : Delayed) (k : Nat) :
    (firstOccurrences Move.tail [] (d.exits scheme k)).map Move.reaction
      = redirectReactions d.edge.transition.redirects
        ++ if (d.dayMove scheme k).tail ∈ d.edge.transition.redirects.map Redirect.target then []
          else [(d.dayMove scheme k).reaction] := by
  have hredirects : (firstOccurrences Move.tail [] (d.redirectMoves scheme k)).map Move.reaction
      = redirectReactions d.edge.transition.redirects := by
    rw [redirectReactions_eq, redirectMoves, ← map_firstOccurrences fun _ => rfl, List.map_map]
    rfl
  have htails : (d.redirectMoves scheme k).map Move.tail
      = d.edge.transition.redirects.map Redirect.target := by
    rw [redirectMoves, List.map_map]
    rfl
  rw [exits, firstOccurrences_concat, htails, List.map_append, hredirects]
  split <;> rfl

/-- The passing of the day, when no redirect leads to the next waiting state. -/
theorem dayReactions_eq {e : Edge} {n k : Nat}
    (hnext : k + 1 < n →
      scheme.idAt e.head (k + 1) ∉ e.transition.redirects.map Redirect.target) :
    dayReactions scheme e n k
      = if (Delayed.dayMove scheme ⟨e, n⟩ k).tail ∈ e.transition.redirects.map Redirect.target
        then [] else [(Delayed.dayMove scheme ⟨e, n⟩ k).reaction] := by
  unfold dayReactions Delayed.dayMove
  by_cases hlast : k + 1 < n
  · rw [if_pos hlast, if_pos hlast, if_neg (hnext hlast)]
    rfl
  · rw [if_neg hlast, if_neg hlast, Move.reaction, getD_spawn_arrival]
    rfl

/-- **The reactions of a waiting state.** Those to the redirects come first, then those to a new
    day. -/
theorem subrecords_waiting (h : g.expand scheme = .ok g') {e : Edge} (he : e ∈ g.edges) {n : Nat}
    (hn : e.transition.delay = some n) {k : Nat} (hk : 0 < k) (hlt : k < n) :
    (g'.itemOf (scheme.idAt e.head k)).subrecords
      = redirectReactions e.transition.redirects ++ dayReactions scheme e n k := by
  obtain ⟨k, rfl⟩ := Nat.exists_eq_succ_of_ne_zero (Nat.ne_of_gt hk)
  have hd : (⟨e, n⟩ : Delayed) ∈ delayed g := mem_delayed_iff.2 ⟨he, hn⟩
  -- Redirects lead to states of the graph, so none of them leads to the next waiting state.
  have hnext : k + 1 + 1 < n →
      scheme.idAt e.head (k + 1 + 1) ∉ e.transition.redirects.map Redirect.target := by
    intro hlast hmem
    have hg := (expand_eq_ok_iff.1 h).1
    obtain ⟨r, hr, htarget⟩ := List.mem_map.1 hmem
    exact hg.fresh e he n hn (k + 1 + 1) (by omega) hlast (htarget ▸ hg.targets e he n hn r hr)
  rw [subrecords_itemOf_eq, map_toMove_outgoing_expand h hd (show k < n - 1 by omega),
    Delayed.map_reaction_exits, dayReactions_eq hnext]

/-- On the last day nothing is left to react to exactly when a redirect leads to the tail. -/
theorem dayReactions_last_eq_nil_iff {e : Edge} {n k : Nat} (hk : k + 1 = n) :
    dayReactions scheme e n k = [] ↔ ∃ r ∈ e.transition.redirects, r.target = e.tail := by
  rw [dayReactions, if_neg (by omega), ← List.mem_map]
  by_cases hmem : e.tail ∈ e.transition.redirects.map Redirect.target
  · rw [if_pos hmem]
    exact iff_of_true rfl hmem
  · rw [if_neg hmem]
    exact iff_of_false (by simp) hmem

/-- **What a waiting state becomes.** An expanded graph can be compiled, and then every waiting
    state has become one item. Its reactions are those to the redirects, for each target to the
    first trigger only, and then those to a new day. The arrival in the tail, with what it spawns
    and does, is lost when a redirect leads to the tail and only then; a redirect is lost when an
    earlier one leads to the same state and only then. -/
theorem expand_compileRecords_waiting {sentinel : String} (h : g.expand scheme = .ok g')
    (hsentinel : ∀ e ∈ g.edges, ∀ n, e.transition.delay = some n →
      ∀ k, 0 < k → k < n → scheme.idAt e.head k ≠ sentinel) :
    ∃ records, g'.compileRecords sentinel = .ok records
      ∧ ∀ e ∈ g.edges, ∀ n, e.transition.delay = some n → ∀ k, 0 < k → k < n →
        ∃ record, records.filter (fun r => r.id? = some (scheme.idAt e.head k)) = [record]
          ∧ record.subrecords
            = redirectReactions e.transition.redirects ++ dayReactions scheme e n k
          ∧ (k + 1 = n → (record.subrecords = redirectReactions e.transition.redirects
            ↔ ∃ r ∈ e.transition.redirects, r.target = e.tail))
          ∧ ∀ before r after, e.transition.redirects = before ++ r :: after →
            redirectReactions (before ++ [r]) <+: record.subrecords
              ∧ (redirectReactions (before ++ [r]) = redirectReactions before
                ↔ ∃ s ∈ before, s.target = r.target) := by
  refine ⟨_, Graph.compileRecords_eq_ok_iff.2
    ⟨fun e he _ => delay_of_mem_edges_expand h he, rfl⟩, fun e he n hn k hk hlt => ?_⟩
  have hmem : scheme.idAt e.head k ∈ g'.ids := by
    obtain ⟨k, rfl⟩ := Nat.exists_eq_succ_of_ne_zero (Nat.ne_of_gt hk)
    rw [ids_expand h]
    refine List.mem_append_right _ (List.mem_flatMap.2
      ⟨⟨e, n⟩, mem_delayed_iff.2 ⟨he, hn⟩, Delayed.mem_waitingIds.2 ⟨k, ?_, rfl⟩⟩)
    show k < n - 1
    omega
  have hreactions := subrecords_waiting h he hn hk hlt
  refine ⟨g'.itemOf (scheme.idAt e.head k),
    Graph.filter_items_eq_singleton hmem (hsentinel e he n hn k hk hlt), hreactions, ?_, ?_⟩
  · intro hlast
    rw [hreactions, ← dayReactions_last_eq_nil_iff hlast]
    exact List.append_right_eq_self
  · intro before r after hsplit
    refine ⟨?_, redirectReactions_concat_eq_self_iff⟩
    have hprefix := redirectReactions_prefix (before ++ [r]) after
    rw [List.append_assoc, List.singleton_append, ← hsplit] at hprefix
    rw [hreactions]
    exact hprefix.trans (List.prefix_append _ _)

/-- A seed that takes three days to grow. Smashing and slashing it lead to the same state, and using
    it makes it grow at once. -/
def growing : Edge :=
  ⟨"seed", "plant", ⟨.newDay, some 3, some (.str "dew"), some "rustle", none,
    [⟨.smash, "dirt"⟩, ⟨.slash, "dirt"⟩, ⟨.use, "plant"⟩]⟩, 0⟩

/-- The states of a seed. -/
def seedGraph : Graph :=
  ((∅ : Graph).addTransition "seed" "plant" growing.transition).addNode "dirt"

/-- Slashing is lost on both days, and the plant does not appear by itself on the last one. -/
theorem expand_compileRecords_waiting_seedGraph :
    ∃ g' records, seedGraph.expand .dayIndexed = .ok g' ∧ g'.compileRecords "X" = .ok records
      ∧ (∃ record, records.filter (fun r => r.id? = some "seed__day1") = [record]
        ∧ record.subrecords = [Graph.reaction .smash "dirt" .null none,
          Graph.reaction .use "plant" .null none, Graph.reaction .newDay "seed__day2" .null none]
        ∧ record.subrecords.map (fun s => (s.properties.get? "element", s.properties.get? "newID"))
          = [(some (.str "smash"), some (.str "dirt")), (some (.str "use"), some (.str "plant")),
            (some (.str "newDay"), some (.str "seed__day2"))])
      ∧ ∃ record, records.filter (fun r => r.id? = some "seed__day2") = [record]
        ∧ record.subrecords = [Graph.reaction .smash "dirt" .null none,
          Graph.reaction .use "plant" .null none]
        ∧ record.subrecords.map (fun s => (s.properties.get? "element", s.properties.get? "newID"))
          = [(some (.str "smash"), some (.str "dirt")),
            (some (.str "use"), some (.str "plant"))] := by
  have hok : (seedGraph.expand .dayIndexed).isOk = true := by decide +kernel
  obtain ⟨g', h⟩ := exists_eq_ok_of_isOk hok
  have he : growing ∈ seedGraph.edges := List.mem_cons_self
  have hsentinel : ∀ e ∈ seedGraph.edges, ∀ n, e.transition.delay = some n →
      ∀ k, 0 < k → k < n → IdScheme.dayIndexed.idAt e.head k ≠ "X" := by
    intro e hmem n hn k hk hlt
    obtain rfl : e = growing := List.mem_singleton.1 hmem
    obtain rfl : 3 = n := Option.some.inj hn
    obtain rfl | rfl : k = 1 ∨ k = 2 := by omega
    all_goals decide +kernel
  obtain ⟨records, hrecords, hwaiting⟩ := expand_compileRecords_waiting h hsentinel
  obtain ⟨first, hfirst, hreactions, -⟩ := hwaiting growing he 3 rfl 1 (by decide) (by decide)
  obtain ⟨second, hsecond, hreactions', -⟩ := hwaiting growing he 3 rfl 2 (by decide) (by decide)
  refine ⟨g', records, h, hrecords, ⟨first, hfirst, hreactions.trans rfl, ?_⟩,
    second, hsecond, hreactions'.trans rfl, ?_⟩
  · rw [hreactions]
    rfl
  · rw [hreactions']
    rfl

end GameContent
