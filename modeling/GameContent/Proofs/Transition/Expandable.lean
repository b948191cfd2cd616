import GameContent.Proofs.Transition.Application

/-!
# `Proofs.Transition.Expandable` — which graphs can be expanded

`Graph.Expandable` says of a graph itself, without the plan that an expansion makes, that each of
its delayed transitions can be unrolled: it is daily, its redirects lead to states, its description
can be rendered, the ids of its waiting states are not states yet, and no other delayed transition
leaves its head. `expand_eq_ok_iff` gives the graph that results; the main statement of the module
is that nothing else can go wrong.
-/

namespace GameContent
open Expansion

namespace Expansion

/-! ## The delayed transitions of a graph -/

theorem mem_delayed_iff {g : Graph} {d : Delayed} :
    d ∈ delayed g ↔ d.edge ∈ g.edges ∧ d.edge.transition.delay = some d.days := by
  rw [delayed, List.mem_filterMap]
  constructor
  · rintro ⟨e, he, hd⟩
    obtain ⟨n, hn, rfl⟩ := Option.map_eq_some_iff.1 hd
    exact ⟨g.flatMap_outgoing_perm.mem_iff.1 he, hn⟩
  · rintro ⟨he, hn⟩
    exact ⟨d.edge, g.flatMap_outgoing_perm.mem_iff.2 he, by rw [hn]; rfl⟩

theorem one_lt_days_of_mem_delayed {g : Graph} {d : Delayed} (h : d ∈ delayed g) : 1 < d.days :=
  (Transition.delay_eq_some_iff.1 (mem_delayed_iff.1 h).2).2

theorem head_mem_ids_of_mem_delayed {g : Graph} {d : Delayed} (h : d ∈ delayed g) :
    d.edge.head ∈ g.ids :=
  Graph.head_mem_ids (mem_delayed_iff.1 h).1

/-- A delayed transition is listed with its own number of days. -/
theorem eq_of_mem_delayed_of_edge_eq {g : Graph} {d d' : Delayed} (hd : d ∈ delayed g)
    (hd' : d' ∈ delayed g) (h : d.edge = d'.edge) : d = d' := by
  have hdays : some d.days = some d'.days := by
    rw [← (mem_delayed_iff.1 hd).2, ← (mem_delayed_iff.1 hd').2, h]
  obtain ⟨e, n⟩ := d
  obtain ⟨e', n'⟩ := d'
  cases Option.some.inj hdays
  cases h
  rfl

theorem delayed_nodup (g : Graph) : (delayed g).Nodup := by
  refine List.Nodup.filterMap ?_ (g.flatMap_outgoing_perm.nodup_iff.2 g.edges_nodup)
  intro e e' d hd hd'
  obtain ⟨n, -, rfl⟩ := Option.map_eq_some_iff.1 hd
  obtain ⟨n', -, he⟩ := Option.map_eq_some_iff.1 hd'
  exact (congrArg Delayed.edge he).symm

/-- The delayed transitions, in the order in which transitions were added. -/
theorem delayed_perm (g : Graph) :
    (delayed g).Perm (g.edges.filterMap fun e => e.transition.delay.map (⟨e, ·⟩)) :=
  g.flatMap_outgoing_perm.filterMap _

theorem check_eq_ok_iff {ds : List Delayed} :
    check ds = .ok () ↔ ∀ d ∈ ds, d.edge.transition.trigger = .newDay := by
  rw [check]
  cases hfind : ds.find? fun d => d.edge.transition.trigger ≠ .newDay with
  | none => simpa [List.find?_eq_none] using hfind
  | some d =>
    have hd : d.edge.transition.trigger ≠ .newDay := by simpa using List.find?_some hfind
    simp only [reduceCtorEq, false_iff]
    exact fun hall => hd (hall d (List.mem_of_find?_eq_some hfind))

end Expansion

/-! ## Expandable graphs -/

/-- Every delayed transition of the graph can be unrolled. -/
structure Graph.Expandable (scheme : IdScheme) (g : Graph) : Prop where
  /-- It is fired by a new day. -/
  daily : ∀ e ∈ g.edges, ∀ n, e.transition.delay = some n → e.transition.trigger = .newDay
  /-- Its redirects lead to states of the graph. -/
  targets : ∀ e ∈ g.edges, ∀ n, e.transition.delay = some n →
    ∀ r ∈ e.transition.redirects, r.target ∈ g.ids
  /-- Its description can be rendered against the properties of its head. -/
  describable : ∀ e ∈ g.edges, ∀ n, e.transition.delay = some n →
    ∀ template, e.transition.description = some template →
      ∃ text, Template.render template n (g.properties? e.head) = .ok text
  /-- None of its waiting states is a state of the graph. -/
  fresh : ∀ e ∈ g.edges, ∀ n, e.transition.delay = some n →
    ∀ k, 0 < k → k < n → scheme.idAt e.head k ∉ g.ids
  /-- No other delayed transition leaves its head. -/
  heads : ∀ e ∈ g.edges, ∀ f ∈ g.edges, ∀ m n, e.transition.delay = some m →
    f.transition.delay = some n → e.head = f.head → e = f

namespace Expansion

/-- The plan of the expansion of a graph. -/
def plan (scheme : IdScheme) (g : Graph) : Plan :=
  (delayed g).foldl (Plan.unrolled scheme) ⟨g, [], []⟩

theorem accepts_iff {scheme : IdScheme} {g : Graph} {d : Delayed} :
    (Plan.mk g [] []).Accepts scheme d
      ↔ (∀ r ∈ d.edge.transition.redirects, r.target ∈ g.ids)
        ∧ Describable d.edge.transition.description (g.properties? d.edge.head)
        ∧ ∀ id ∈ d.waitingIds scheme, id ∉ g.ids :=
  ⟨fun h => ⟨h.targets, h.describable, fun id hid => (h.fresh id hid).1⟩,
    fun h => ⟨h.1, h.2.1, fun id hid => ⟨h.2.2 id hid, List.not_mem_nil⟩⟩⟩

/-- The ids of waiting states, said with the number of the state. -/
theorem forall_mem_waitingIds {scheme : IdScheme} {d : Delayed} {p : String → Prop} :
    (∀ id ∈ d.waitingIds scheme, p id)
      ↔ ∀ k, 0 < k → k < d.days → p (scheme.idAt d.edge.head k) := by
  constructor
  · intro h k hk hlt
    refine h _ (Delayed.mem_waitingIds.2 ⟨k - 1, by omega, ?_⟩)
    rw [Nat.sub_add_cancel hk]
  · intro h id hid
    obtain ⟨k, hk, rfl⟩ := Delayed.mem_waitingIds.1 hid
    exact h (k + 1) (by omega) (by omega)

theorem pairwise_heads_iff {g : Graph} :
    (delayed g).Pairwise (fun d d' => d.edge.head ≠ d'.edge.head)
      ↔ ∀ e ∈ g.edges, ∀ f ∈ g.edges, ∀ m n, e.transition.delay = some m →
          f.transition.delay = some n → e.head = f.head → e = f := by
  constructor
  · intro h e he f hf m n hm hn heq
    have hnodup : ((delayed g).map fun d => d.edge.head).Nodup := List.pairwise_map.2 h
    have hd : (⟨e, m⟩ : Delayed) ∈ delayed g := mem_delayed_iff.2 ⟨he, hm⟩
    have hd' : (⟨f, n⟩ : Delayed) ∈ delayed g := mem_delayed_iff.2 ⟨hf, hn⟩
    exact congrArg Delayed.edge (List.inj_on_of_nodup_map hnodup hd hd' heq)
  · intro h
    refine (delayed_nodup g).pairwise_of_forall_ne fun d hd d' hd' hne heq => hne ?_
    obtain ⟨he, hm⟩ := mem_delayed_iff.1 hd
    obtain ⟨hf, hn⟩ := mem_delayed_iff.1 hd'
    exact eq_of_mem_delayed_of_edge_eq hd hd' (h _ he _ hf _ _ hm hn heq)

theorem expandable_iff {scheme : IdScheme} {g : Graph} :
    g.Expandable scheme
      ↔ (∀ d ∈ delayed g, d.edge.transition.trigger = .newDay)
        ∧ (∀ d ∈ delayed g, (Plan.mk g [] []).Accepts scheme d)
        ∧ (delayed g).Pairwise (fun d d' => d.edge.head ≠ d'.edge.head) := by
  constructor
  · intro h
    refine ⟨fun d hd => ?_, fun d hd => accepts_iff.2 ⟨?_, ?_, ?_⟩, pairwise_heads_iff.2 h.heads⟩
    all_goals obtain ⟨he, hn⟩ := mem_delayed_iff.1 hd
    · exact h.daily _ he _ hn
    · exact h.targets _ he _ hn
    · exact fun t ht => Template.exists_render_eq_ok_iff.1 (h.describable _ he _ hn t ht)
    · exact forall_mem_waitingIds.2 (h.fresh _ he _ hn)
  · rintro ⟨hdaily, haccepts, hpair⟩
    have hdelayed : ∀ e ∈ g.edges, ∀ n, e.transition.delay = some n → ⟨e, n⟩ ∈ delayed g :=
      fun e he n hn => mem_delayed_iff.2 ⟨he, hn⟩
    refine ⟨fun e he n hn => hdaily _ (hdelayed e he n hn), fun e he n hn => ?_,
      fun e he n hn t ht => ?_, fun e he n hn => ?_, pairwise_heads_iff.1 hpair⟩
    all_goals obtain ⟨htargets, hdesc, hfresh⟩ := accepts_iff.1 (haccepts _ (hdelayed e he n hn))
    · exact htargets
    · exact Template.exists_render_eq_ok_iff.2 (hdesc t ht)
    · exact forall_mem_waitingIds.1 hfresh

/-- **What an expansion gives**, and when. -/
theorem expand_eq_ok_iff {scheme : IdScheme} {g g' : Graph} :
    g.expand scheme = .ok g'
      ↔ g.Expandable scheme ∧ g' = (plan scheme g).apply (delayed g) := by
  have hrun := @Plan.unrollAll_eq_ok_iff scheme ⟨g, [], []⟩
  have hds : ∀ d ∈ delayed g, d.edge.head ∈ (Plan.mk g [] []).graph.ids ∧ 1 < d.days :=
    fun d hd => ⟨head_mem_ids_of_mem_delayed hd, one_lt_days_of_mem_delayed hd⟩
  rw [expandable_iff, ← check_eq_ok_iff, Graph.expand]
  constructor
  · intro h
    obtain ⟨_, hcheck, h⟩ := bind_eq_ok_iff.1 h
    obtain ⟨p, hplan, h⟩ := bind_eq_ok_iff.1 h
    obtain ⟨haccepts, hpair, rfl⟩ := (hrun hds).1 hplan
    exact ⟨⟨hcheck, haccepts, hpair⟩, pure_eq_ok_iff.1 h⟩
  · rintro ⟨⟨hcheck, haccepts, hpair⟩, rfl⟩
    refine bind_eq_ok_iff.2 ⟨(), hcheck, ?_⟩
    exact bind_eq_ok_iff.2 ⟨_, (hrun hds).2 ⟨haccepts, hpair, rfl⟩, rfl⟩

end Expansion

/-- **When an expansion succeeds.** A graph is expanded exactly when it is expandable. In particular
    waiting states of different heads get the same id only where a waiting state of one of them is a
    state of the graph already. -/
theorem expand_succeeds_iff_expandable (scheme : IdScheme) (g : Graph) :
    ((∃ g', g.expand scheme = .ok g') ↔ g.Expandable scheme)
      ∧ ∀ e ∈ g.edges, ∀ f ∈ g.edges, ∀ m n, e.transition.delay = some m →
          f.transition.delay = some n → e.head ≠ f.head →
          ∀ j k, 0 < j → j < m → 0 < k → k < n → scheme.idAt e.head j = scheme.idAt f.head k →
            (∃ i, 0 < i ∧ i < m ∧ scheme.idAt e.head i ∈ g.ids)
              ∨ ∃ i, 0 < i ∧ i < n ∧ scheme.idAt f.head i ∈ g.ids := by
  constructor
  · constructor
    · rintro ⟨g', h⟩
      exact (expand_eq_ok_iff.1 h).1
    · exact fun h => ⟨_, expand_eq_ok_iff.2 ⟨h, rfl⟩⟩
  · intro e he f hf m n _ _ hne j k hj hjm hk hkn heq
    obtain ⟨j, rfl⟩ := Nat.exists_eq_succ_of_ne_zero (Nat.ne_of_gt hj)
    obtain ⟨k, rfl⟩ := Nat.exists_eq_succ_of_ne_zero (Nat.ne_of_gt hk)
    rcases IdScheme.idAt_clash hne heq with ⟨i, hi, hit⟩ | ⟨i, hi, hit⟩
    · exact Or.inl ⟨i + 1, by omega, by omega, hit ▸ Graph.head_mem_ids hf⟩
    · exact Or.inr ⟨i + 1, by omega, by omega, hit ▸ Graph.head_mem_ids he⟩

end GameContent
