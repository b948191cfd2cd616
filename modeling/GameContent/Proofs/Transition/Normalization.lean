import GameContent.Proofs.Transition.WaitingReactions

/-!
# `Proofs.Transition.Normalization` — expanded graphs are what expansion leaves alone

A graph is expanded if no transition takes more than one day. Expanding gives such a graph
(`isExpanded_expand`), and it changes no such graph, its slots included, however the ids of waiting
states are formed (`expand_of_isExpanded`). So the expanded graphs are the ones that expansion keeps
(`expand_eq_self_iff`), and a second expansion has nothing left to do (`expand_normalizes`).
-/

namespace GameContent
open Expansion

variable {scheme : IdScheme} {g g' : Graph}

namespace Graph

theorem isExpanded_iff : g.isExpanded = true ↔ ∀ e ∈ g.edges, e.transition.delay = none := by
  unfold isExpanded
  simp only [List.all_eq_true, Option.isNone_iff_eq_none]

/-- An expanded graph can be compiled, whatever the sentinel. -/
theorem exists_compileRecords_of_isExpanded (h : g.isExpanded = true) (sentinel : String) :
    ∃ rs, g.compileRecords sentinel = .ok rs :=
  ⟨_, compileRecords_eq_ok_iff.2 ⟨fun e he _ => isExpanded_iff.1 h e he, rfl⟩⟩

/-- In an expanded graph nothing is left to unroll. -/
theorem delayed_of_isExpanded (h : g.isExpanded = true) : delayed g = [] := by
  rw [List.eq_nil_iff_forall_not_mem]
  intro d hd
  obtain ⟨he, hn⟩ := mem_delayed_iff.1 hd
  rw [isExpanded_iff.1 h d.edge he] at hn
  exact absurd hn (by simp)

/-- **An expanded graph stays as it is**, with its slots and those that are free. -/
theorem expand_of_isExpanded (h : g.isExpanded = true) (scheme : IdScheme) :
    g.expand scheme = .ok g := by
  unfold expand
  rw [delayed_of_isExpanded h]
  rfl

end Graph

/-- **An expansion gives an expanded graph.** -/
theorem isExpanded_expand (h : g.expand scheme = .ok g') : g'.isExpanded = true := by
  rw [Graph.isExpanded_iff]
  intro e he
  exact delay_of_mem_edges_expand h he

/-- The graphs that expansion keeps are the expanded ones. -/
theorem expand_eq_self_iff : g.expand scheme = .ok g ↔ g.isExpanded = true := by
  constructor
  · intro h
    exact isExpanded_expand h
  · intro h
    exact Graph.expand_of_isExpanded h scheme

/-- **Expansion normalizes.** No transition of the graph that it gives is delayed, so that graph can
    be compiled whatever the sentinel, and expanding it once more, under either scheme, gives the
    very same graph: its states with their properties and its transitions with their slots. -/
theorem expand_normalizes (h : g.expand scheme = .ok g') :
    (∀ e ∈ g'.edges, e.transition.delay = none)
      ∧ (∀ sentinel, ∃ rs, g'.compileRecords sentinel = .ok rs)
      ∧ ∀ scheme', g'.expand scheme' = .ok g' := by
  have hexpanded := isExpanded_expand h
  refine ⟨Graph.isExpanded_iff.1 hexpanded, ?_, ?_⟩
  · intro sentinel
    exact Graph.exists_compileRecords_of_isExpanded hexpanded sentinel
  · intro scheme'
    exact Graph.expand_of_isExpanded hexpanded scheme'

/-- The expanded states of a seed, where the slot of the delayed transition was taken again. -/
theorem expand_normalizes_seedGraph :
    ∃ g', seedGraph.expand .dayIndexed = .ok g'
      ∧ (∃ rs, g'.compileRecords "dirt" = .ok rs)
      ∧ g'.expand .suffix = .ok g' := by
  have hok : (seedGraph.expand .dayIndexed).isOk = true := by decide +kernel
  obtain ⟨g', h⟩ := exists_eq_ok_of_isOk hok
  obtain ⟨-, hcompiled, hsame⟩ := expand_normalizes h
  exact ⟨g', h, hcompiled "dirt", hsame .suffix⟩

end GameContent
