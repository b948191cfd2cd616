import GameContent.Proofs.Entity.Drafting
import Mathlib.Data.List.Forall2

/-!
# `Proofs.Entity.Conditions` — the condition of a node that replaces another one

The condition can refer to the node by a placeholder, since its id may not be known yet. The node
puts its id in when it is built, but only if the condition is a single text. A list holds a
condition in each of its items, and these are written as they were set, with the placeholders in
them.

## Contents
- `Resolves` and `Resolved`: what the record should hold under the key of the condition.
- **Conditions.** `condition_build`: what it does hold there, and when this is what it should hold.
-/

namespace GameContent
namespace DialogNode
open Text

/-! ## What is expected -/

/-- The value that the calls set last under a key. -/
def lastSet (key : String) (calls : List Call) : Option Value :=
  (calls.filterMap Call.property?).reverse.lookup key

/-- The id of the drafted node: the one that the calls give last, or the fresh one. -/
def ownId (fresh : String) (calls : List Call) : String :=
  (calls.filterMap Call.id?).getLast?.getD fresh

/-- One element of a condition before and after the node's id is put in. -/
inductive Resolves (id : String) : Value → Value → Prop where
  /-- In a text the id takes the place of each placeholder. -/
  | text {s t : String} (h : Replaced placeholder.toList id.toList s.toList t.toList) :
      Resolves id (.str s) (.str t)
  /-- What is no text stays as it is. -/
  | other {v : Value} (h : ∀ s, v ≠ .str s) : Resolves id v v

/-- Of two values under the key of the condition, the elements of the second one are those of the
    first one with the node's id put in, one for one. Null elements are left out. -/
def Resolved (id : String) (set built : Option Value) : Prop :=
  List.Forall₂ (Resolves id) (set.getD .null).scalars (built.getD .null).scalars

/-- What the record `r` holds under the key of the condition, by the calls that drafted it. -/
structure ConditionOf (fresh : String) (calls : List Call) (r : Record) : Prop where
  /-- The record has the id of the node. -/
  id : r.id? = some (ownId fresh calls)
  /-- A single text is resolved. -/
  text : ∀ s, lastSet conditionKey calls = some (.str s) →
    ∃ t, r.properties.get? conditionKey = some (.str t)
      ∧ Replaced placeholder.toList (ownId fresh calls).toList s.toList t.toList
  /-- Anything else is held as it was set. -/
  other : (∀ s, lastSet conditionKey calls ≠ some (.str s)) →
    r.properties.get? conditionKey = lastSet conditionKey calls
  /-- So the condition is resolved unless it is a list with a placeholder in one of its texts. -/
  resolved_iff : Resolved (ownId fresh calls) (lastSet conditionKey calls)
      (r.properties.get? conditionKey)
    ↔ ∀ items, lastSet conditionKey calls = some (.list items) → ∀ s, .str s ∈ items →
      ¬placeholder.toList <:+: s.toList ∨ ownId fresh calls = placeholder
  /-- The elements are what the fields of the record show under the key. -/
  shown : (⟨r, []⟩ : Placed).fields.filter (·.1 = conditionKey)
    = ((r.properties.get? conditionKey).getD .null).scalarTexts.map (conditionKey, ·)

/-! ## Elements -/

theorem placeholder_ne_nil : placeholder.toList ≠ [] := by decide

theorem replaced_replaceAll (id s : String) :
    Replaced placeholder.toList id.toList s.toList (replaceAll placeholder id s).toList := by
  rw [replaceAll, String.toList_ofList]
  exact (replaced_iff placeholder_ne_nil).2 rfl

/-- An element that stays as it is counts as resolved if it holds no placeholder, or if putting in
    the id changes nothing. -/
theorem resolves_self_iff {id : String} {v : Value} :
    Resolves id v v ↔ ∀ s, v = .str s → ¬placeholder.toList <:+: s.toList ∨ id = placeholder := by
  constructor
  · rintro h s rfl
    cases h with
    | text h => exact ((replaced_self_iff placeholder_ne_nil).1 h).imp_right String.toList_inj.1
    | other h => exact absurd rfl (h s)
  · intro h
    by_cases htext : ∃ s, v = .str s
    · obtain ⟨s, rfl⟩ := htext
      exact .text ((replaced_self_iff placeholder_ne_nil).2 ((h s rfl).imp_right (congrArg _)))
    · exact .other (not_exists.1 htext)

/-- Resolving a value resolves its elements, unless it is a list with a placeholder. -/
theorem resolved_resolve_iff {id : String} {set : Option Value} :
    Resolved id set (set.map (resolve id))
      ↔ ∀ items, set = some (.list items) → ∀ s, .str s ∈ items →
        ¬placeholder.toList <:+: s.toList ∨ id = placeholder := by
  by_cases hlist : ∃ items, set = some (.list items)
  · obtain ⟨items, rfl⟩ := hlist
    have hitems : Resolved id (some (.list items)) (some (.list items))
        ↔ ∀ v ∈ items.filter (!·.isNull), Resolves id v v := List.forall₂_same
    -- A list is not resolved, so each of its elements is compared with itself.
    show Resolved id (some (.list items)) (some (.list items)) ↔ _
    rw [hitems]
    constructor
    · rintro h _ ⟨⟩ s hs
      exact resolves_self_iff.1 (h _ (List.mem_filter.2 ⟨hs, rfl⟩)) s rfl
    · intro h v hv
      refine resolves_self_iff.2 ?_
      rintro s rfl
      exact h items rfl s (List.mem_of_mem_filter hv)
  · -- Anything else has one element at most, and that one is resolved.
    refine iff_of_true ?_ fun items hitems => absurd ⟨items, hitems⟩ hlist
    cases set with
    | none => exact .nil
    | some v =>
      cases v with
      | null => exact .nil
      | list items => exact absurd ⟨items, rfl⟩ hlist
      | str s => exact .cons (.text (replaced_replaceAll id s)) .nil
      | _ => exact .cons (.other nofun) .nil

/-! ## Conditions -/

section Build

variable (replaced fresh : String) (calls : List Call)

theorem get?_condition_build :
    ((drafted (some replaced) calls).build fresh).properties.get? conditionKey
      = (lastSet conditionKey calls).map (resolve (ownId fresh calls)) := by
  -- The two lists and the id of the replaced node stand under other keys.
  rw [properties_build, Properties.get?_set, if_neg (by decide), Properties.get?_set,
    if_neg (by decide), replaces_drafted, Option.elim_some, overrideProperties,
    Properties.get?_modify, if_pos rfl, Properties.get?_set, if_neg (by decide), properties_drafted,
    Properties.ofList, Properties.get?_setAll, id_drafted]
  exact congrArg _ (Option.or_none)

/-- **The condition of a node that replaces another one**, after any calls: a single text has the
    node's id put in for its placeholders, and a list keeps them. -/
theorem condition_build :
    ConditionOf fresh calls ((drafted (some replaced) calls).build fresh) where
  id := by rw [id_build, id_drafted, ownId]
  text s hs := by
    refine ⟨replaceAll placeholder (ownId fresh calls) s, ?_, replaced_replaceAll _ s⟩
    rw [get?_condition_build, hs]
    rfl
  other hother := by
    rw [get?_condition_build]
    cases hset : lastSet conditionKey calls with
    | none => rfl
    | some v =>
      cases v with
      | str s => exact absurd hset (hother s)
      | _ => rfl
  resolved_iff := by rw [get?_condition_build, resolved_resolve_iff]
  shown := Placed.filter_fields _ (by decide)

end Build

/-- A draft with a list of conditions, one of which refers to the node. -/
def listedConditions : List Call :=
  [.named "intro_v2", .property "fReq" (.texts [notSeen placeholder, seen "start"])]

/-- A placeholder in a list stays in the record, although the node has an id. -/
theorem not_resolved_listedConditions :
    ¬Resolved (ownId "dialog" listedConditions) (lastSet conditionKey listedConditions)
      (((drafted (some "intro") listedConditions).build "dialog").properties.get?
        conditionKey) := by
  intro h
  have hitem : Resolves "intro_v2" (.str (notSeen placeholder)) (.str (notSeen placeholder)) :=
    (List.forall₂_cons.1 h).1
  rcases resolves_self_iff.1 hitem _ rfl with hno | hsame
  · exact hno (by decide)
  · exact absurd hsame (by decide)

end DialogNode
end GameContent
