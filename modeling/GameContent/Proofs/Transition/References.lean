import GameContent.Proofs.Transition.Items
import GameContent.Proofs.Transition.WaitingReactions

/-!
# `Proofs.Transition.References` — no reference among compiled items is dangling

The ids in compiled items come from the states of the graph, from the waiting states of an expansion
and from the targets of redirects. Wherever one is referred to, by a reaction or by a state that
clones another, it is the sentinel or the id of exactly one item. What a waiting state clones is the
state before it, so following what is cloned leads back to the head of the chain
(`expand_compileRecords_references`).

## Contents
- `Resolves` says that an id leads to an item, `Properties.cloneFrom?` and `ancestor?` read what is
  cloned.
- `ancestor?_idAt` is the induction along a chain. It is used for the states of the expanded graph
  and for the items that they become.
-/

namespace GameContent
open Expansion

/-! ## References -/

/-- Whether an id is the sentinel or the id of exactly one record. -/
def Resolves (sentinel : String) (rs : List Record) (id : String) : Prop :=
  id = sentinel ∨ ∃ r, rs.filter (fun r => r.id? = some id) = [r]

/-- The id of the state that is cloned. -/
def Properties.cloneFrom? (p : Properties) : Option String :=
  match p.get? "cloneFrom" with
  | some (.str id) => some id
  | _ => none

/-- The properties of the first record with an id. -/
def propertiesOf? (rs : List Record) (id : String) : Option Properties :=
  (rs.find? fun r => r.id? = some id).map Record.properties

/-- The id that is reached by going to what is cloned a number of times. -/
def ancestor? (bag? : String → Option Properties) : Nat → String → Option String
  | 0, id => some id
  | k + 1, id => ((bag? id).bind Properties.cloneFrom?).bind (ancestor? bag? k)

variable {scheme : IdScheme} {g g' : Graph} {rs : List Record} {sentinel : String}

/-- If each state of a chain clones the one before it, the head of the chain is reached. -/
theorem ancestor?_idAt {bag? : String → Option Properties} {head : String} {m : Nat}
    (h : ∀ k < m,
      (bag? (scheme.idAt head (k + 1))).bind Properties.cloneFrom? = some (scheme.idAt head k)) :
    ancestor? bag? m (scheme.idAt head m) = some head := by
  induction m with
  | zero => rfl
  | succ m ih =>
    rw [ancestor?, h m (Nat.lt_succ_self m), Option.bind_some]
    exact ih fun k hk => h k (Nat.lt_succ_of_lt hk)

theorem propertiesOf?_of_filter_eq {id : String} {r : Record}
    (h : rs.filter (fun r => r.id? = some id) = [r]) :
    propertiesOf? rs id = some r.properties := by
  rw [propertiesOf?, ← List.head?_filter, h]
  rfl

/-! ## Compiled items -/

namespace Graph

theorem map_id?_items (g : Graph) (ids : List String) :
    (ids.map g.itemOf).map Record.id? = ids.map some := by
  rw [List.map_map]
  rfl

/-- What a state clones, the item that it becomes clones. -/
theorem cloneFrom?_itemOf (g : Graph) (id : String) :
    (g.itemOf id).properties.cloneFrom? = (g.properties? id).bind Properties.cloneFrom? := by
  have hvalue := (g.isItemOf_itemOf id).values "cloneFrom"
  simp only [if_neg (show "cloneFrom" ≠ "special" by decide), Option.map_id'] at hvalue
  rw [Properties.cloneFrom?, hvalue]
  cases g.properties? id with
  | none => rfl
  | some p => rfl

/-- The states of a graph lead to the items that they become. -/
theorem resolves_items {id : String} (hid : id ∈ g.ids) :
    Resolves sentinel ((g.ids.filter (· ≠ sentinel)).map g.itemOf) id := by
  by_cases heq : id = sentinel
  · exact Or.inl heq
  · exact Or.inr ⟨_, filter_items_eq_singleton hid heq⟩

/-- The reactions of an item lead to states of the graph. -/
theorem exists_newID?_of_mem_subrecords {id : String} {s : Record}
    (hs : s ∈ (g.itemOf id).subrecords) :
    ∃ target ∈ g.ids, s.newID? = some (.str target) := by
  have hmem : s.newID? ∈ (g.itemOf id).subrecords.map Record.newID? := List.mem_map_of_mem hs
  rw [map_newID?_subrecords] at hmem
  obtain ⟨target, htarget, heq⟩ := List.mem_map.1 hmem
  obtain ⟨e, he, rfl⟩ := List.mem_map.1 (mem_map_firstOccurrences.1 htarget).1
  exact ⟨e.tail, tail_mem_ids (List.mem_filter.1 he).1, heq.symm⟩

end Graph

/-! ## Waiting states -/

theorem cloneFrom?_describe (text : Option String) (previous : String) :
    (describe text (waitingProperties previous)).cloneFrom? = some previous := by
  have hget : (waitingProperties previous).get? "cloneFrom" = some (.str previous) := rfl
  cases text with
  | none => rw [describe, Option.elim, Properties.cloneFrom?, hget]
  | some text =>
    rw [describe, Option.elim, Properties.cloneFrom?, Properties.get?_set,
      if_neg (by decide), hget]

/-- A waiting state clones the state before it. -/
theorem cloneFrom?_expand (h : g.expand scheme = .ok g') {e : Edge} (he : e ∈ g.edges) {n : Nat}
    (hn : e.transition.delay = some n) {k : Nat} (hk : k + 1 < n) :
    (g'.properties? (scheme.idAt e.head (k + 1))).bind Properties.cloneFrom?
      = some (scheme.idAt e.head k) := by
  have hd : (⟨e, n⟩ : Delayed) ∈ delayed g := mem_delayed_iff.2 ⟨he, hn⟩
  rw [properties?_expand_waiting h hd (show k < n - 1 by omega), Option.bind_some]
  exact cloneFrom?_describe _ _

/-- The item that a waiting state becomes clones the state before it as well. -/
theorem cloneFrom?_propertiesOf? (h : g.expand scheme = .ok g')
    (hrs : g'.compileRecords sentinel = .ok rs) {e : Edge} (he : e ∈ g.edges) {n : Nat}
    (hn : e.transition.delay = some n) {k : Nat} (hk : k + 1 < n)
    (hne : scheme.idAt e.head (k + 1) ≠ sentinel) :
    (propertiesOf? rs (scheme.idAt e.head (k + 1))).bind Properties.cloneFrom?
      = some (scheme.idAt e.head k) := by
  obtain ⟨-, rfl⟩ := Graph.compileRecords_eq_ok_iff.1 hrs
  have hid := idAt_mem_ids_expand h he hn hk
  rw [propertiesOf?_of_filter_eq (Graph.filter_items_eq_singleton hid hne), Option.bind_some,
    Graph.cloneFrom?_itemOf, cloneFrom?_expand h he hn hk]

/-! ## Nothing is dangling -/

/-- **References.** The items that an expanded graph becomes have distinct ids. Every reaction leads
    to the sentinel or to one of them. Every waiting state, and the item that it becomes, clones the
    state before it in its chain, which is the sentinel or one of the items as well; so the head of
    the chain is reached from the `k`-th waiting state by going `k` times to what is cloned. -/
theorem expand_compileRecords_references (h : g.expand scheme = .ok g')
    (hrs : g'.compileRecords sentinel = .ok rs) :
    (∃ ids : List String, ids.Nodup ∧ rs.map Record.id? = ids.map some)
      ∧ (∀ r ∈ rs, ∀ s ∈ r.subrecords,
        ∃ target, s.newID? = some (.str target) ∧ Resolves sentinel rs target)
      ∧ ∀ e ∈ g.edges, ∀ n, e.transition.delay = some n → ∀ k, k + 1 < n →
        (g'.properties? (scheme.idAt e.head (k + 1))).bind Properties.cloneFrom?
            = some (scheme.idAt e.head k)
          ∧ Resolves sentinel rs (scheme.idAt e.head k)
          ∧ ancestor? g'.properties? (k + 1) (scheme.idAt e.head (k + 1)) = some e.head
          ∧ (scheme.idAt e.head (k + 1) ≠ sentinel →
            (propertiesOf? rs (scheme.idAt e.head (k + 1))).bind Properties.cloneFrom?
              = some (scheme.idAt e.head k))
          ∧ ((∀ j ≤ k, scheme.idAt e.head (j + 1) ≠ sentinel) →
            ancestor? (propertiesOf? rs) (k + 1) (scheme.idAt e.head (k + 1)) = some e.head) := by
  have hitems := (Graph.compileRecords_eq_ok_iff.1 hrs).2
  refine ⟨⟨g'.ids.filter (· ≠ sentinel), g'.ids_nodup.filter _, ?_⟩, ?_, ?_⟩
  · rw [hitems, Graph.map_id?_items]
  · intro r hr s hs
    rw [hitems] at hr ⊢
    obtain ⟨id, -, rfl⟩ := List.mem_map.1 hr
    obtain ⟨target, htarget, hnew⟩ := Graph.exists_newID?_of_mem_subrecords hs
    exact ⟨target, hnew, Graph.resolves_items htarget⟩
  · intro e he n hn k hk
    refine ⟨cloneFrom?_expand h he hn hk, ?_, ?_, cloneFrom?_propertiesOf? h hrs he hn hk, ?_⟩
    · rw [hitems]
      exact Graph.resolves_items (idAt_mem_ids_expand h he hn (Nat.lt_of_succ_lt hk))
    · exact ancestor?_idAt fun j hj => cloneFrom?_expand h he hn (by omega)
    · intro hne
      exact ancestor?_idAt fun j hj =>
        cloneFrom?_propertiesOf? h hrs he hn (by omega) (hne j (by omega))

/-- The two days of a seed, where no item is made of the dirt. -/
theorem expand_compileRecords_references_seedGraph :
    ∃ g' rs, seedGraph.expand .dayIndexed = .ok g' ∧ g'.compileRecords "dirt" = .ok rs
      ∧ (g'.properties? "seed__day2").bind Properties.cloneFrom? = some "seed__day1"
      ∧ (∃ r, rs.filter (fun r => r.id? = some "seed__day1") = [r])
      ∧ ancestor? g'.properties? 2 "seed__day2" = some "seed"
      ∧ ancestor? (propertiesOf? rs) 2 "seed__day2" = some "seed" := by
  have hok : (seedGraph.expand .dayIndexed).isOk = true := by decide +kernel
  obtain ⟨g', h⟩ := exists_eq_ok_of_isOk hok
  have hrs := Graph.compileRecords_eq_ok_iff.2
    ⟨fun e he (_ : e.head ≠ "dirt") => delay_of_mem_edges_expand h he, rfl⟩
  have he : growing ∈ seedGraph.edges := List.mem_cons_self
  obtain ⟨-, -, hchains⟩ := expand_compileRecords_references h hrs
  obtain ⟨hclone, hresolves, hhead, -, hhead'⟩ := hchains growing he 3 rfl 1 (by decide)
  refine ⟨g', _, h, hrs, hclone, ?_, hhead, hhead' ?_⟩
  · exact hresolves.resolve_left (by decide +kernel)
  · intro j hj
    obtain rfl | rfl : j = 0 ∨ j = 1 := by omega
    all_goals decide +kernel

end GameContent
