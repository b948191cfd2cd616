import GameContent.Entity.ItemType
import GameContent.Proofs.Properties.Entries
import Mathlib.Data.List.DropRight
import Mathlib.Data.List.Induction

/-!
# `Proofs.Entity.Flags` — items and actors drafted by any calls

The flags of an item can be nothing, one value or a list at any moment of its draft, and they are
written by three kinds of call: setting them outright, alone or among other properties, replaces
them, and adding a flag puts it behind those that are there. Read as a list, with nothing as the
empty list, they change in the same way in each of these shapes (`flagsHeld_apply`), so the flags of
the built record are those of the last value that was set and then those that were added to it.

## Contents
- `Call`, and what a call sets, adds and owns.
- `flagsBy` and `KeepsFlags`: which flags there should be, and what the record of a draft should
  hold.
- **Calls.** What one call does to the flags, to the other properties, to the keys and to the
  reactions.
- **Drafts.** The same for a sequence of calls, and the result.
-/

namespace GameContent
namespace ItemType

/-- One call on a draft. -/
inductive Call where
  /-- Sets a property. -/
  | property (key : String) (value : Value)
  /-- Sets the properties of a bag, in its order. -/
  | properties (p : Properties)
  /-- Adds a flag. -/
  | special (flag : Value)
  /-- Adds a reaction. -/
  | reaction (r : Record)
  /-- Adds several reactions, in order. -/
  | reactions (rs : List Record)

namespace Call

/-- The draft after the call. -/
def apply (t : ItemType) : Call → ItemType
  | property key value => t.property key value
  | properties p => t.withProperties p
  | special flag => t.special flag
  | reaction r => t.reaction r
  | reactions rs => t.withReactions rs

/-- The value that the call sets outright under a key. -/
def value? (key : String) : Call → Option Value
  | property k value => if key = k then some value else none
  | properties p => p.get? key
  | _ => none

/-- The flag that the call adds. -/
def flag? : Call → Option Value
  | special flag => some flag
  | _ => none

/-- The keys that the call writes to, in order. -/
def keys : Call → List String
  | property key _ => [key]
  | properties p => p.keys
  | special _ => ["special"]
  | _ => []

/-- The reactions that the call adds, in order. -/
def added : Call → List Record
  | reaction r => [r]
  | reactions rs => rs
  | _ => []

end Call

/-- The draft of an actor or of an item after a sequence of calls. -/
def drafted (ofActor : Bool) (id : String) (calls : List Call) : ItemType :=
  calls.foldl Call.apply (if ofActor then actor id else item id)

/-! ## What is expected -/

/-- The value that is set outright under a key by the last call that does so. -/
def lastValue? (key : String) (calls : List Call) : Option Value :=
  calls.reverse.findSome? (Call.value? key)

/-- The calls behind the last one that sets a value outright under a key: all, if none does. -/
def since (key : String) (calls : List Call) : List Call :=
  calls.rtakeWhile fun c => (c.value? key).isNone

/-- The flags in the value that was set last: the items of a list, a value of any other kind as the
    only flag, and none if no value was set. -/
def flagsSet (calls : List Call) : List Value :=
  match lastValue? "special" calls with
  | some (.list flags) => flags
  | some flag => [flag]
  | none => []

/-- The flags by the calls: those that were set last and then those that were added since. -/
def flagsBy (calls : List Call) : List Value :=
  flagsSet calls ++ (since "special" calls).filterMap Call.flag?

/-- A flag that is set outright drops the earlier ones, and later ones come behind it. -/
example : flagsBy [.special "round", .property "special" "red", .special "tasty"]
    = [.str "red", .str "tasty"] := rfl

/-- What the record `r` of a draft holds, by the calls that made the draft. -/
structure KeepsFlags (ofActor : Bool) (id : String) (calls : List Call) (r : Record) : Prop where
  /-- The type name is that of the kind that was drafted. -/
  typeName : r.typeName = if ofActor then "ActorType" else "ItemType"
  /-- The id is the one that was given at the start. -/
  identity : r.identity = .named id
  /-- There are no flags exactly if no call ever wrote to them. -/
  absent : r.properties.get? "special" = none ↔ ∀ c ∈ calls, "special" ∉ c.keys
  /-- Otherwise they are a list: what was set last and then what was added since. -/
  flags : (∃ c ∈ calls, "special" ∈ c.keys) →
    r.properties.get? "special" = some (.list (flagsBy calls))
  /-- Any other property has the value that was set last. -/
  others : ∀ key, key ≠ "special" → r.properties.get? key = lastValue? key calls
  /-- No key occurs twice. -/
  distinct : r.properties.keys.Nodup
  /-- The keys come in the order in which they were first written to. -/
  order : r.properties.keys = (calls.flatMap Call.keys).eraseDups
  /-- The record owns the reactions in the order in which they were added. -/
  reactions : r.subrecords = calls.flatMap Call.added

/-! ## Calls -/

/-- The flags of a bag as a list: the empty one if there are none. -/
def flagsHeld (p : Properties) : List Value :=
  (p.get? "special").elim [] Value.toList

section Apply

variable (t : ItemType) (c : Call)

/-- **One call and the flags.** A value that is set replaces them, and a flag that is added comes
    behind them. -/
theorem flagsHeld_apply :
    flagsHeld (c.apply t).properties
      = (c.value? "special").elim (flagsHeld t.properties ++ c.flag?.toList) Value.toList := by
  unfold flagsHeld
  cases c with
  | property key value =>
    show ((t.properties.set key value).get? "special").elim [] Value.toList = _
    rw [Properties.get?_set, Call.value?]
    by_cases h : "special" = key
    · rw [if_pos h, if_pos h]
      rfl
    · rw [if_neg h, if_neg h]
      simp [Call.flag?]
  | properties p =>
    show ((t.properties.extend p).get? "special").elim [] Value.toList = _
    rw [Properties.get?_extend, Call.value?]
    cases p.get? "special" <;> simp [Call.flag?]
  | special flag =>
    show ((t.properties.upsert "special" (addFlag flag)).get? "special").elim [] Value.toList = _
    rw [Properties.get?_upsert, if_pos rfl]
    rfl
  | reaction r => simp [Call.apply, Call.value?, Call.flag?, reaction]
  | reactions rs => simp [Call.apply, Call.value?, Call.flag?, withReactions]

/-- A property other than the flags is changed only by setting it. -/
theorem get?_apply {key : String} (h : key ≠ "special") :
    (c.apply t).properties.get? key = (c.value? key).or (t.properties.get? key) := by
  cases c with
  | property k value =>
    show (t.properties.set k value).get? key = _
    rw [Properties.get?_set, Call.value?]
    split <;> rfl
  | properties p => exact Properties.get?_extend t.properties p key
  | special flag =>
    show (t.properties.upsert "special" (addFlag flag)).get? key = _
    rw [Properties.get?_upsert, if_neg h]
    rfl
  | reaction r => rfl
  | reactions rs => rfl

/-- The keys stay those that were ever written to, in the order in which they first occur. -/
theorem keys_apply {written : List String} (h : t.properties.keys = written.eraseDups) :
    (c.apply t).properties.keys = (written ++ c.keys).eraseDups := by
  cases c with
  | property key value =>
    exact Properties.keys_upsertAll_eraseDups h Prod.fst (fun e _ => e.2) [(key, value)]
  | properties p => exact Properties.keys_upsertAll_eraseDups h Prod.fst (fun e _ => e.2) p.entries
  | special flag =>
    exact Properties.keys_upsertAll_eraseDups h Prod.fst (fun e => addFlag e.2) [("special", flag)]
  | reaction r => exact h.trans (congrArg _ (List.append_nil written).symm)
  | reactions rs => exact h.trans (congrArg _ (List.append_nil written).symm)

theorem reactions_apply : (c.apply t).reactions = t.reactions ++ c.added := by
  cases c with
  | reaction r => rfl
  | reactions rs => rfl
  | _ => exact (List.append_nil _).symm

theorem head_apply : (c.apply t).typeName = t.typeName ∧ (c.apply t).id = t.id := by
  cases c <;> exact ⟨rfl, rfl⟩

end Apply

/-! ## Drafts -/

section Drafts

variable (ofActor : Bool) (name : String) (calls : List Call)

theorem drafted_concat (c : Call) :
    drafted ofActor name (calls ++ [c]) = c.apply (drafted ofActor name calls) := by
  rw [drafted, List.foldl_append]
  rfl

theorem properties_drafted_nil : (drafted ofActor name []).properties = ∅ := by
  cases ofActor <;> rfl

theorem lastValue?_concat (key : String) (c : Call) :
    lastValue? key (calls ++ [c]) = (c.value? key).or (lastValue? key calls) := by
  rw [lastValue?, List.reverse_concat, List.findSome?_cons]
  cases c.value? key <;> rfl

theorem flagsSet_eq : flagsSet calls = (lastValue? "special" calls).elim [] Value.toList := by
  unfold flagsSet
  cases lastValue? "special" calls with
  | none => rfl
  | some v => cases v <;> rfl

/-- What the flags should be changes with a call as the flags that are held do. -/
theorem flagsBy_concat (c : Call) :
    flagsBy (calls ++ [c])
      = (c.value? "special").elim (flagsBy calls ++ c.flag?.toList) Value.toList := by
  unfold flagsBy since
  rw [flagsSet_eq, flagsSet_eq, lastValue?_concat, List.rtakeWhile_concat]
  cases hvalue : c.value? "special" with
  | some v => simp
  | none =>
    have hflag : [c].filterMap Call.flag? = c.flag?.toList := by
      cases h : c.flag? <;> simp [h]
    simp [hflag]

theorem flagsHeld_drafted : flagsHeld (drafted ofActor name calls).properties = flagsBy calls := by
  -- The draft grows at its end, so the induction takes the last call off, here and below.
  induction calls using List.reverseRecOn with
  | nil =>
    rw [properties_drafted_nil]
    rfl
  | append_singleton calls c ih => rw [drafted_concat, flagsHeld_apply, ih, flagsBy_concat]

theorem get?_drafted {key : String} (h : key ≠ "special") :
    (drafted ofActor name calls).properties.get? key = lastValue? key calls := by
  induction calls using List.reverseRecOn with
  | nil =>
    rw [properties_drafted_nil]
    rfl
  | append_singleton calls c ih => rw [drafted_concat, get?_apply _ _ h, ih, lastValue?_concat]

/-- The keys are those that the calls write to, in the order in which they first occur. -/
theorem keys_drafted :
    (drafted ofActor name calls).properties.keys = (calls.flatMap Call.keys).eraseDups := by
  induction calls using List.reverseRecOn with
  | nil =>
    rw [properties_drafted_nil]
    rfl
  | append_singleton calls c ih =>
    rw [drafted_concat, keys_apply _ _ ih, List.flatMap_append, List.flatMap_singleton]

theorem reactions_drafted :
    (drafted ofActor name calls).reactions = calls.flatMap Call.added := by
  induction calls using List.reverseRecOn with
  | nil => cases ofActor <;> rfl
  | append_singleton calls c ih =>
    rw [drafted_concat, reactions_apply, ih, List.flatMap_append, List.flatMap_singleton]

theorem head_drafted :
    (drafted ofActor name calls).typeName = (if ofActor then "ActorType" else "ItemType")
      ∧ (drafted ofActor name calls).id = name := by
  induction calls using List.reverseRecOn with
  | nil => cases ofActor <;> exact ⟨rfl, rfl⟩
  | append_singleton calls c ih =>
    obtain ⟨htype, hid⟩ := head_apply (drafted ofActor name calls) c
    rw [drafted_concat, htype, hid]
    exact ih

end Drafts

/-- Building the record brings the flags into list shape and changes nothing else. -/
theorem get?_build (t : ItemType) (key : String) :
    t.build.properties.get? key
      = if key = "special" then (t.properties.get? key).map fun v => .list v.toList
        else t.properties.get? key :=
  Properties.get?_modify t.properties "special" key _

theorem keys_build (ofActor : Bool) (id : String) (calls : List Call) :
    (drafted ofActor id calls).build.properties.keys = (calls.flatMap Call.keys).eraseDups :=
  (Properties.keys_modify _ _ _).trans (keys_drafted ofActor id calls)

/-- There are flags in the built record if some call wrote to them. -/
theorem isSome_flags_build (ofActor : Bool) (id : String) (calls : List Call) :
    ((drafted ofActor id calls).build.properties.get? "special").isSome
      ↔ ∃ c ∈ calls, "special" ∈ c.keys := by
  rw [← Properties.mem_keys_iff, keys_build, List.mem_eraseDups, List.mem_flatMap]

/-- If there are flags, they are the list of those that the draft holds. -/
theorem flags_build {t : ItemType} (h : (t.build.properties.get? "special").isSome) :
    t.build.properties.get? "special" = some (.list (flagsHeld t.properties)) := by
  rw [get?_build, if_pos rfl] at h ⊢
  unfold flagsHeld
  cases hget : t.properties.get? "special" with
  | none => simp [hget] at h
  | some v => rfl

/-- **The flags of an item are a list and none is lost**, whatever calls drafted it. -/
theorem keepsFlags_build (ofActor : Bool) (id : String) (calls : List Call) :
    KeepsFlags ofActor id calls (drafted ofActor id calls).build := by
  have hwritten := isSome_flags_build ofActor id calls
  obtain ⟨htype, hid⟩ := head_drafted ofActor id calls
  refine ⟨htype, congrArg Identity.named hid, ?_, ?_, ?_, Properties.keys_nodup _,
    keys_build ofActor id calls, reactions_drafted ofActor id calls⟩
  · rw [← Option.not_isSome_iff_eq_none, hwritten]
    simp
  · intro hcall
    rw [flags_build (hwritten.2 hcall), flagsHeld_drafted]
  · intro key hkey
    rw [get?_build, if_neg hkey, get?_drafted ofActor id calls hkey]

/-- The calls that draft a wolf. Its flags are replaced by a single one, among other properties. -/
def wolfCalls : List Call :=
  [.special "grey", .properties (.ofList [("name", "Wolf"), ("special", "wild")]), .special "shy",
    .property "name" "Old wolf"]

theorem keepsFlags_build_wolf :
    ∃ wolf, (drafted true "wolf" wolfCalls).build = wolf ∧ wolf.typeName = "ActorType"
      ∧ wolf.properties.get? "special" = some (.list [.str "wild", .str "shy"])
      ∧ wolf.properties.get? "name" = some (.str "Old wolf")
      ∧ wolf.properties.keys = ["special", "name"] := by
  have hcall : ∃ c ∈ wolfCalls, "special" ∈ c.keys :=
    ⟨_, List.mem_cons_self, List.mem_cons_self⟩
  have hwolf := keepsFlags_build true "wolf" wolfCalls
  refine ⟨_, rfl, hwolf.typeName, (hwolf.flags hcall).trans ?_,
    (hwolf.others "name" (by decide)).trans ?_, hwolf.order.trans ?_⟩
  · rfl
  · rfl
  · decide +kernel

end ItemType
end GameContent
