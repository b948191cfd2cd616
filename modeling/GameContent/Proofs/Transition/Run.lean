import GameContent.Transition.Graph
import Mathlib.Data.Set.Function

/-!
# `Proofs.Transition.Run` — runs along labelled arcs

A system is given by its arcs: a way from one state to another, with a label that shows what happens
on it. A run follows arcs and shows their labels.

## Contents
- `Run` collects the labels of a run, and `Leads` looks at the triggers alone.
- `Graph.arcs` are the transitions of a graph as arcs between ids.
- `run_map_iff`: renaming states changes no run if the names are distinct.
-/

namespace GameContent

/-- What a transition shows when it is taken. -/
structure Label where
  /-- The event that fires it. -/
  trigger : Trigger
  /-- What it spawns. -/
  spawn : Option Value
  /-- The action that goes with it. -/
  action : Option String

/-- A labelled way from one state to another. -/
structure Arc (σ : Type) where
  /-- The state it leaves. -/
  source : σ
  /-- What it shows. -/
  label : Label
  /-- The state it leads to. -/
  target : σ

/-- The label of a transition. -/
def Transition.label (t : Transition) : Label := ⟨t.trigger, t.spawn, t.action⟩

/-- A transition as an arc. -/
def Edge.arc (e : Edge) : Arc String := ⟨e.head, e.transition.label, e.tail⟩

/-- The transitions of a graph as arcs. -/
def Graph.arcs (g : Graph) : List (Arc String) :=
  g.edges.map Edge.arc

variable {σ τ : Type}

/-- An arc between renamed states. -/
def Arc.map (f : σ → τ) (a : Arc σ) : Arc τ := ⟨f a.source, a.label, f a.target⟩

/-- A run along arcs, with the labels that it shows. -/
inductive Run (arcs : List (Arc σ)) : σ → List Label → σ → Prop where
  /-- Nothing happens. -/
  | nil (s : σ) : Run arcs s [] s
  /-- An arc is followed first. -/
  | cons {a : Arc σ} {ls : List Label} {t : σ} (ha : a ∈ arcs) (h : Run arcs a.target ls t) :
      Run arcs a.source (a.label :: ls) t

/-- Whether a word of triggers leads from one state to another. -/
def Leads (arcs : List (Arc σ)) (s : σ) (word : List Trigger) (t : σ) : Prop :=
  ∃ ls, Run arcs s ls t ∧ ls.map Label.trigger = word

namespace Run

variable {arcs arcs' : List (Arc σ)} {s t : σ} {ls : List Label}

theorem mono (h : Run arcs s ls t) (hsub : arcs ⊆ arcs') : Run arcs' s ls t := by
  induction h with
  | nil s => exact Run.nil s
  | cons ha _ ih => exact Run.cons (hsub ha) ih

theorem map (f : σ → τ) (h : Run arcs s ls t) : Run (arcs.map (Arc.map f)) (f s) ls (f t) := by
  induction h with
  | nil s => exact Run.nil (f s)
  | @cons a ls t ha _ ih =>
    exact @Run.cons τ _ (a.map f) ls (f t) (List.mem_map_of_mem ha) ih

/-- A run between renamed states comes from a run between the states. -/
theorem exists_of_map {f : σ → τ} {S : Set σ} (hf : S.InjOn f)
    (hends : ∀ a ∈ arcs, a.source ∈ S ∧ a.target ∈ S) {x y : τ}
    (h : Run (arcs.map (Arc.map f)) x ls y) :
    ∀ s ∈ S, f s = x → ∃ t ∈ S, f t = y ∧ Run arcs s ls t := by
  induction h with
  | nil x => exact fun s hs hx => ⟨s, hs, hx, Run.nil s⟩
  | cons hm _ ih =>
    obtain ⟨a, ha, rfl⟩ := List.mem_map.1 hm
    intro s hs hx
    obtain ⟨hsource, htarget⟩ := hends a ha
    -- The names are distinct, so the run starts with an arc that leaves `s` itself.
    obtain rfl : s = a.source := hf hs hsource hx
    obtain ⟨t, ht, hy, hrun⟩ := ih a.target htarget rfl
    exact ⟨t, ht, hy, Run.cons ha hrun⟩

end Run

/-- **Renaming states** under distinct names changes no run. -/
theorem run_map_iff {arcs : List (Arc σ)} {arcs' : List (Arc τ)} {f : σ → τ} {S : Set σ}
    (hf : S.InjOn f) (hends : ∀ a ∈ arcs, a.source ∈ S ∧ a.target ∈ S)
    (harcs : (arcs.map (Arc.map f)).Perm arcs') {s t : σ} (hs : s ∈ S) (ht : t ∈ S)
    {ls : List Label} : Run arcs s ls t ↔ Run arcs' (f s) ls (f t) := by
  constructor
  · exact fun h => (h.map f).mono harcs.subset
  · intro h
    obtain ⟨t', ht', heq, hrun⟩ := (h.mono harcs.symm.subset).exists_of_map hf hends s hs rfl
    obtain rfl : t' = t := hf ht' ht heq
    exact hrun

end GameContent
