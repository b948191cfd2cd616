import GameContent.Proofs.Transition.Compilation

/-!
# `Proofs.Transition.Unexpanded` — graphs that have to be expanded first

A graph with a delayed transition is refused, and the first such transition is reported, state by
state (`compileRecords_eq_error_iff`). No item is made of the sentinel, so no transition that leaves
it is looked at, whereas `isExpanded` looks at every transition. The two agree but for the
transitions that leave the sentinel (`compileRecords_refuses_iff`, `compiles_though_not_isExpanded`).
-/

namespace GameContent
namespace Graph

variable {g : Graph} {id sentinel : String} {err : GraphError}

/-! ## The first delayed transition -/

/-- The first delayed one of several transitions, with its number of days. -/
def firstDelayed? (es : List Edge) : Option (Edge × Nat) :=
  es.findSome? fun e => e.transition.delay.map (e, ·)

theorem firstDelayed?_append (es fs : List Edge) :
    firstDelayed? (es ++ fs) = (firstDelayed? es).or (firstDelayed? fs) :=
  List.findSome?_append

theorem firstDelayed?_eq_none_iff {es : List Edge} :
    firstDelayed? es = none ↔ ∀ e ∈ es, e.transition.delay = none := by
  unfold firstDelayed?
  simp only [List.findSome?_eq_none_iff, Option.map_eq_none_iff]

theorem delay_of_firstDelayed? {es : List Edge} {e : Edge} {n : Nat}
    (h : firstDelayed? es = some (e, n)) : e ∈ es ∧ e.transition.delay = some n := by
  obtain ⟨f, hf, hdelay⟩ := List.exists_of_findSome?_eq_some h
  obtain ⟨m, hm, hpair⟩ := Option.map_eq_some_iff.1 hdelay
  obtain ⟨rfl, rfl⟩ := Prod.mk.inj hpair
  exact ⟨hf, hm⟩

/-! ## What is reported -/

theorem compileNode_eq_error_iff :
    g.compileNode id = .error err
      ↔ ∃ e n, firstDelayed? (g.outgoing id) = some (e, n)
        ∧ err = .unexpandedDelay e.head e.tail n := by
  unfold compileNode
  show (match firstDelayed? (g.outgoing id) with
    | some (e, days) => Except.error (GraphError.unexpandedDelay id e.tail days)
    | none => .ok (g.itemOf id)) = .error err ↔ _
  cases hfirst : firstDelayed? (g.outgoing id) with
  | none => simp
  | some first =>
    obtain ⟨e, n⟩ := first
    have hhead : e.head = id := by
      have hmem := (delay_of_firstDelayed? hfirst).1
      simpa using (List.mem_filter.1 hmem).2
    constructor
    · intro h
      exact ⟨e, n, rfl, hhead.symm ▸ (Except.error.inj h).symm⟩
    · rintro ⟨f, m, hpair, rfl⟩
      obtain ⟨rfl, rfl⟩ := Prod.mk.inj (Option.some.inj hpair)
      rw [hhead]

/-- Going through several states, the first delayed transition out of any of them is reported. -/
theorem compileNodes_eq_error_iff {ids : List String} :
    g.compileNodes ids = .error err
      ↔ ∃ e n, firstDelayed? (ids.flatMap g.outgoing) = some (e, n)
        ∧ err = .unexpandedDelay e.head e.tail n := by
  induction ids with
  | nil => simp [compileNodes, firstDelayed?]
  | cons id ids ih =>
    rw [List.flatMap_cons, firstDelayed?_append]
    cases hnode : g.compileNode id with
    | error err' =>
      obtain ⟨e, n, hfirst, rfl⟩ := compileNode_eq_error_iff.1 hnode
      have hstop : g.compileNodes (id :: ids) = .error (.unexpandedDelay e.head e.tail n) := by
        rw [compileNodes, hnode]
        rfl
      rw [hstop, hfirst, Option.some_or]
      simp [eq_comm]
    | ok r =>
      have hnone : firstDelayed? (g.outgoing id) = none :=
        firstDelayed?_eq_none_iff.2 (compileNode_eq_ok_iff.1 hnode).1
      have hgo : g.compileNodes (id :: ids) = .error err ↔ g.compileNodes ids = .error err := by
        rw [compileNodes, hnode]
        cases g.compileNodes ids with
        | error err' => exact Iff.rfl
        | ok rs => simp [bind, Except.bind, pure, Except.pure]
      rw [hgo, hnone, Option.none_or, ih]

/-- **What is reported** when a graph is refused: the first delayed transition out of the states but
    the sentinel. -/
theorem compileRecords_eq_error_iff :
    g.compileRecords sentinel = .error err
      ↔ ∃ e n, firstDelayed? ((g.ids.filter (· ≠ sentinel)).flatMap g.outgoing) = some (e, n)
        ∧ err = .unexpandedDelay e.head e.tail n :=
  compileNodes_eq_error_iff

/-! ## When a graph is refused -/

/-- The transitions that are looked at are those out of the states but the sentinel. -/
theorem mem_outgoing_ne_iff {e : Edge} :
    e ∈ (g.ids.filter (· ≠ sentinel)).flatMap g.outgoing ↔ e ∈ g.edges ∧ e.head ≠ sentinel := by
  rw [List.mem_flatMap]
  constructor
  · rintro ⟨id, hid, he⟩
    obtain ⟨hmem, hhead⟩ := List.mem_filter.1 he
    obtain rfl : e.head = id := by simpa using hhead
    exact ⟨hmem, by simpa using (List.mem_filter.1 hid).2⟩
  · rintro ⟨he, hne⟩
    refine ⟨e.head, List.mem_filter.2 ⟨head_mem_ids he, by simpa using hne⟩, ?_⟩
    exact List.mem_filter.2 ⟨he, by simp⟩

theorem isExpanded_eq_false_iff :
    g.isExpanded = false ↔ ∃ e ∈ g.edges, ∃ n, e.transition.days = some n ∧ 1 < n := by
  rw [isExpanded, List.all_eq_false]
  refine exists_congr fun e => and_congr_right fun _ => ?_
  rw [Option.isNone_iff_eq_none]
  exact Option.ne_none_iff_exists'.trans (exists_congr fun n => Transition.delay_eq_some_iff)

/-- **When a graph is refused.** It is refused exactly when a transition out of a state other than
    the sentinel takes more than one day, and it is not expanded exactly when any transition does. -/
theorem compileRecords_refuses_iff (g : Graph) (sentinel : String) :
    ((∃ head tail days, g.compileRecords sentinel = .error (.unexpandedDelay head tail days))
        ↔ ∃ e ∈ g.edges, e.head ≠ sentinel ∧ ∃ n, e.transition.days = some n ∧ 1 < n)
      ∧ (g.isExpanded = false ↔ ∃ e ∈ g.edges, ∃ n, e.transition.days = some n ∧ 1 < n) := by
  refine ⟨?_, isExpanded_eq_false_iff⟩
  constructor
  · rintro ⟨head, tail, days, h⟩
    obtain ⟨e, n, hfirst, -⟩ := compileRecords_eq_error_iff.1 h
    obtain ⟨hmem, hdelay⟩ := delay_of_firstDelayed? hfirst
    obtain ⟨he, hne⟩ := mem_outgoing_ne_iff.1 hmem
    exact ⟨e, he, hne, n, Transition.delay_eq_some_iff.1 hdelay⟩
  · rintro ⟨e, he, hne, n, hn⟩
    have hdelay : e.transition.delay = some n := Transition.delay_eq_some_iff.2 hn
    cases h : g.compileRecords sentinel with
    | ok rs =>
      have hnone := (compileRecords_eq_ok_iff.1 h).1 e he hne
      exact absurd (hnone.symm.trans hdelay) (by simp)
    | error err =>
      obtain ⟨f, m, -, rfl⟩ := compileRecords_eq_error_iff.1 h
      exact ⟨f.head, f.tail, m, rfl⟩

/-- A sentinel that a transition leaves after two days. -/
def restingGraph : Graph :=
  (∅ : Graph).addTransition "X" "seed" { Transition.on .newDay with days := some 2 }

/-- It is compiled although it is not expanded. -/
theorem compiles_though_not_isExpanded :
    restingGraph.isExpanded = false
      ∧ ¬∃ head tail days,
        restingGraph.compileRecords "X" = .error (.unexpandedDelay head tail days) := by
  have hok : (restingGraph.compileRecords "X").isOk = true := by decide +kernel
  refine ⟨by decide, ?_⟩
  rintro ⟨head, tail, days, h⟩
  rw [h] at hok
  exact Bool.false_ne_true hok

end Graph
end GameContent
