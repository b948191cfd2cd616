import GameContent.Proofs.Transition.Operations
import GameContent.Proofs.Transition.Rendering
import GameContent.Proofs.Transition.WaitingId

/-!
# `Proofs.Transition.Chain` — one chain of waiting states, in closed form

The waiting states of a delayed transition are made one after the other, each with the id of the one
before it and everything that is taken so far at hand. Here a chain is said at once, from its head
and its number of days.

## Contents
- `Describable` and `descriptionText` are the two halves of `description?`.
- `Delayed.states` and `Delayed.chain` are the waiting states and the transitions of a chain.
- `waitingStates_eq_ok_iff` says when the waiting states can be made, and that they are these.
-/

namespace GameContent
namespace Expansion

/-! ## Descriptions -/

/-- Whether there is no template, or it can be rendered. -/
def Describable (template : Option String) (bag : Option Properties) : Prop :=
  ∀ t, template = some t → Template.Renderable t bag

/-- The text of a template, if there is one and it can be rendered. -/
def descriptionText (template : Option String) (days : Nat) (bag : Option Properties) :
    Option String :=
  template.bind fun t => (Template.render t days bag).toOption

/-- The bag of a state whose description is set, if there is one. -/
def describedBag (text : Option String) (bag : Option Properties) : Option Properties :=
  text.elim bag fun text => some ((bag.getD ∅).set "description" text)

theorem description?_eq_ok_iff {template : Option String} {days : Nat} {bag : Option Properties}
    {text : Option String} :
    description? template days bag = .ok text
      ↔ Describable template bag ∧ text = descriptionText template days bag := by
  cases template with
  | none => simp [description?, Describable, descriptionText, eq_comm]
  | some t =>
    have hd : Describable (some t) bag ↔ Template.Renderable t bag := by simp [Describable]
    have hr : (∃ text, Template.render t days bag = .ok text) ↔ Template.Renderable t bag :=
      Template.exists_render_eq_ok_iff
    rw [hd, ← hr, description?, descriptionText]
    simp only [Option.bind_some]
    cases Template.render t days bag with
    | error e => simp
    | ok x => simp [Except.toOption, eq_comm]

theorem Describable.describedBag {template : Option String} {bag : Option Properties}
    (h : Describable template bag) (text : Option String) :
    Describable template (describedBag text bag) := by
  cases text with
  | none => exact h
  | some text => exact fun t ht => (h t ht).set "description" text

/-! ## One chain -/

namespace Delayed

/-- The ids of the waiting states of a chain. -/
def waitingIds (scheme : IdScheme) (d : Delayed) : List String :=
  (List.range (d.days - 1)).map fun k => scheme.idAt d.edge.head (k + 1)

/-- The waiting state after `k` others, described against the given bag. -/
def stateAt (scheme : IdScheme) (bag : Option Properties) (d : Delayed) (k : Nat) : WaitingState :=
  ⟨scheme.idAt d.edge.head (k + 1), scheme.idAt d.edge.head k,
    describe (descriptionText d.edge.transition.description (d.days - (k + 1)) bag)
      (waitingProperties (scheme.idAt d.edge.head k))⟩

/-- The waiting states of a chain. -/
def states (scheme : IdScheme) (bag : Option Properties) (d : Delayed) : List WaitingState :=
  (List.range (d.days - 1)).map (d.stateAt scheme bag)

/-- The transition into the waiting state after `k` others, and the redirects out of it. -/
def movesAt (scheme : IdScheme) (d : Delayed) (k : Nat) : List Move :=
  ⟨scheme.idAt d.edge.head k, scheme.idAt d.edge.head (k + 1), .on .newDay⟩ ::
    d.edge.transition.redirects.map fun r =>
      ⟨scheme.idAt d.edge.head (k + 1), r.target, .on r.trigger⟩

/-- The transitions of a chain: those of its waiting states one after the other, and the last one
    into the tail. -/
def chain (scheme : IdScheme) (d : Delayed) : List Move :=
  (List.range (d.days - 1)).flatMap (d.movesAt scheme)
    ++ [⟨scheme.idAt d.edge.head (d.days - 1), d.edge.tail, arrival d.edge.transition⟩]

theorem mem_waitingIds {scheme : IdScheme} {d : Delayed} {id : String} :
    id ∈ d.waitingIds scheme ↔ ∃ k < d.days - 1, scheme.idAt d.edge.head (k + 1) = id := by
  simp [waitingIds]

theorem waitingIds_nodup (scheme : IdScheme) (d : Delayed) : (d.waitingIds scheme).Nodup :=
  List.nodup_range.map fun _ _ he => Nat.succ_inj.1 (scheme.idAt_injective d.edge.head he)

/-- Of two chains from different heads that share a waiting state, one runs into the head of the
    other. -/
theorem head_mem_waitingIds {scheme : IdScheme} {d d' : Delayed} {id : String}
    (hne : d.edge.head ≠ d'.edge.head) (h : id ∈ d.waitingIds scheme)
    (h' : id ∈ d'.waitingIds scheme) :
    d'.edge.head ∈ d.waitingIds scheme ∨ d.edge.head ∈ d'.waitingIds scheme := by
  obtain ⟨j, hj, rfl⟩ := mem_waitingIds.1 h
  obtain ⟨k, hk, he⟩ := mem_waitingIds.1 h'
  rcases IdScheme.idAt_clash hne he.symm with ⟨i, hi, heq⟩ | ⟨i, hi, heq⟩
  · exact Or.inl (mem_waitingIds.2 ⟨i, by omega, heq⟩)
  · exact Or.inr (mem_waitingIds.2 ⟨i, by omega, heq⟩)

theorem map_id_states (scheme : IdScheme) (bag : Option Properties) (d : Delayed) :
    (d.states scheme bag).map WaitingState.id = d.waitingIds scheme := by
  simp [states, stateAt, waitingIds]

/-- The transitions through the waiting states of a chain are the chain. -/
theorem moves_states (scheme : IdScheme) (bag : Option Properties) (d : Delayed) :
    moves d (d.states scheme bag) = d.chain scheme := by
  have hlast : ((d.states scheme bag).getLast?.map WaitingState.id).getD d.edge.head
      = scheme.idAt d.edge.head (d.days - 1) := by
    rw [states, List.getLast?_map, List.getLast?_range]
    cases d.days - 1 with
    | zero => rfl
    | succ n => simp [stateAt]
  rw [moves, hlast, states, List.flatMap_map, chain]
  rfl

end Delayed

/-- **The step.** The next waiting state of a chain can be made, and those after it, when its id is
    free and its description can be rendered. -/
theorem waitingStates_succ_eq_ok_iff {scheme : IdScheme} {g : Graph} {d : Delayed}
    {taken : List String} {k count : Nat} {ws : List WaitingState} :
    waitingStates scheme g d taken (scheme.idAt d.edge.head k) (k + 1) (count + 1) = .ok ws
      ↔ (scheme.idAt d.edge.head (k + 1) ∉ g.ids ∧ scheme.idAt d.edge.head (k + 1) ∉ taken)
        ∧ ∃ text, description? d.edge.transition.description (count + 1)
            (g.properties? d.edge.head) = .ok text
          ∧ ∃ rest, waitingStates scheme g d (scheme.idAt d.edge.head (k + 1) :: taken)
              (scheme.idAt d.edge.head (k + 1)) (k + 1 + 1) count = .ok rest
            ∧ ws = ⟨scheme.idAt d.edge.head (k + 1), scheme.idAt d.edge.head k,
                describe text (waitingProperties (scheme.idAt d.edge.head k))⟩ :: rest := by
  rw [waitingStates, ← not_or, ← Graph.contains_iff]
  by_cases htaken : g.contains (scheme.idAt d.edge.head (k + 1)) = true
      ∨ scheme.idAt d.edge.head (k + 1) ∈ taken
  · refine iff_of_false (fun h => ?_) fun h => h.1 htaken
    have herr := (if_pos htaken).symm.trans h
    exact absurd herr (by simp)
  · refine Iff.trans (Eq.congr_left (if_neg htaken)) ?_
    simp only [bind_eq_ok_iff, pure_eq_ok_iff, and_iff_right htaken]
    rfl

/-- **The waiting states of a chain** can be made, from any of them on, exactly when their ids are
    free. -/
theorem waitingStates_eq_ok_iff {scheme : IdScheme} {g : Graph} {d : Delayed}
    (hdesc : Describable d.edge.transition.description (g.properties? d.edge.head))
    {count : Nat} {taken : List String} {k : Nat} {ws : List WaitingState}
    (hdays : d.days = k + count + 1) :
    waitingStates scheme g d taken (scheme.idAt d.edge.head k) (k + 1) count = .ok ws
      ↔ (∀ i ∈ List.range' k count, scheme.idAt d.edge.head (i + 1) ∉ g.ids
          ∧ scheme.idAt d.edge.head (i + 1) ∉ taken)
        ∧ ws = (List.range' k count).map (d.stateAt scheme (g.properties? d.edge.head)) := by
  -- So far `k` states are made and `count` remain; those that were made are among the taken ids.
  induction count generalizing taken k ws with
  | zero => simp [waitingStates, eq_comm]
  | succ count ih =>
    -- The ids that follow differ from this one anyway.
    have hlater : ∀ i ∈ List.range' (k + 1) count,
        (scheme.idAt d.edge.head (i + 1) ∉ g.ids
          ∧ scheme.idAt d.edge.head (i + 1) ∉ scheme.idAt d.edge.head (k + 1) :: taken)
        ↔ scheme.idAt d.edge.head (i + 1) ∉ g.ids
          ∧ scheme.idAt d.edge.head (i + 1) ∉ taken := by
      intro i hi
      have hne : scheme.idAt d.edge.head (i + 1) ≠ scheme.idAt d.edge.head (k + 1) := by
        intro he
        have hik := scheme.idAt_injective d.edge.head he
        have hle := (List.mem_range'_1.1 hi).1
        omega
      rw [List.mem_cons, not_or, and_iff_right hne]
    have hstate : d.stateAt scheme (g.properties? d.edge.head) k
        = ⟨scheme.idAt d.edge.head (k + 1), scheme.idAt d.edge.head k,
          describe (descriptionText d.edge.transition.description (count + 1)
            (g.properties? d.edge.head)) (waitingProperties (scheme.idAt d.edge.head k))⟩ := by
      rw [Delayed.stateAt, show d.days - (k + 1) = count + 1 by omega]
    rw [waitingStates_succ_eq_ok_iff, List.range'_succ, List.forall_mem_cons, List.map_cons, hstate]
    constructor
    · rintro ⟨hfree, text, htext, rest, hrest, rfl⟩
      obtain ⟨-, rfl⟩ := description?_eq_ok_iff.1 htext
      obtain ⟨hall, rfl⟩ := (ih (by omega)).1 hrest
      exact ⟨⟨hfree, fun i hi => (hlater i hi).1 (hall i hi)⟩, rfl⟩
    · rintro ⟨⟨hfree, hall⟩, rfl⟩
      refine ⟨hfree, _, description?_eq_ok_iff.2 ⟨hdesc, rfl⟩, _, ?_, rfl⟩
      exact (ih (by omega)).2 ⟨fun i hi => (hlater i hi).2 (hall i hi), rfl⟩

end Expansion
end GameContent
