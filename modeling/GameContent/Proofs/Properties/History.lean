import GameContent.Proofs.Collection.Search
import GameContent.Proofs.Properties.Entries
import Mathlib.Data.List.Basic
import Mathlib.Data.List.Induction

/-!
# `Proofs.Properties.History` — a property bag after any history

A bag comes about by operations, made one after the other on the empty bag. Each of them works on
one key at a time: it searches the entries for the key, writes into the first one it finds, and may
push a new one if there is none. So the value under a key is a matter of what was done under this
key, and where the key stands is a matter of when it last came in.

## Contents
- `Change` and `Operation`: what can be done under a key and with a bag.
- **Plain entries.** The same on a list that may hold a key twice (`Change.write`); on the entries
  of a bag it comes to the same (`Change.entries_apply`).
- **Views.** What one change does to the values (`Change.get?_apply`) and to the keys
  (`Change.keys_apply_of_mem` and its companions), and what a run of steps does (`get?_stepped`,
  `listedAsEntered_stepped`).
- **Histories.** `insertionOrdered_run`.
-/

namespace GameContent
namespace Properties

/-! ## Changes -/

/-- What can be done under one key. -/
inductive Change where
  /-- Sets the value. -/
  | set (value : Value)
  /-- Sets the value unless there is one. -/
  | setDefault (value : Value)
  /-- Adds one more value. -/
  | append (value : Value)
  /-- Takes the key out. -/
  | remove
  /-- Brings the value into list shape, if there is one. -/
  | normalizeList
  /-- Replaces the value, if there is one, by a value that may be made from it. -/
  | assign (f : Value → Value)

namespace Change

/-- The bag after the change. -/
def apply (key : String) (p : Properties) : Change → Properties
  | set v => p.set key v
  | setDefault v => p.setDefault key v
  | append v => p.append key v
  | remove => p.erase key
  | normalizeList => p.normalizeList key
  | assign f => p.modify key f

/-- The value under the key after the change, from the value before. -/
def value (old : Option Value) : Change → Option Value
  | set v => some v
  | setDefault v => some (old.getD v)
  | append v => some (accumulate v old)
  | remove => none
  | normalizeList => old.map fun v => .list v.toList
  | assign f => old.map f

end Change

/-- A change under a key. -/
structure Step where
  /-- The key. -/
  key : String
  /-- The change. -/
  change : Change

/-- One operation on a bag. -/
inductive Operation where
  /-- A change under one key. -/
  | on (key : String) (change : Change)
  /-- Sets several properties, in order. -/
  | extend (entries : List (String × Value))

namespace Operation

/-- The bag after the operation. -/
def apply (p : Properties) : Operation → Properties
  | on key c => c.apply key p
  | extend entries => p.setAll entries

/-- The changes that the operation is made of. -/
def steps : Operation → List Step
  | on key c => [⟨key, c⟩]
  | extend entries => entries.map fun e => ⟨e.1, .set e.2⟩

/-- What of the operation works on a key. -/
def about (key : String) : Operation → List Operation
  | on k c => if k = key then [on k c] else []
  | extend entries => [extend (entries.filter (·.1 = key))]

end Operation

/-- The bag after a history that starts from the empty bag. -/
def run (h : List Operation) : Properties :=
  h.foldl Operation.apply ∅

/-- The bag after a sequence of steps. -/
def stepped (ss : List Step) : Properties :=
  ss.foldl (fun p s => s.change.apply s.key p) ∅

/-- The changes that a history is made of. -/
def steps (h : List Operation) : List Step :=
  h.flatMap Operation.steps

theorem Operation.apply_eq (p : Properties) (o : Operation) :
    o.apply p = o.steps.foldl (fun p s => s.change.apply s.key p) p := by
  cases o with
  | on key c => rfl
  | extend entries =>
    rw [apply, steps, List.foldl_map]
    rfl

theorem run_eq (h : List Operation) : run h = stepped (steps h) := by
  unfold run stepped steps
  rw [List.foldl_flatMap]
  congr 1
  funext p o
  exact o.apply_eq p

theorem stepped_concat (ss : List Step) (s : Step) :
    stepped (ss ++ [s]) = s.change.apply s.key (stepped ss) := by
  rw [stepped, List.foldl_append]
  rfl

/-! ## Plain entries -/

/-- Whether an entry has the key. -/
def hasKey (key : String) (e : String × Value) : Bool :=
  e.1 = key

/-- The entries with the value of the first one of the key changed, or `none` if there is none. -/
def changeKey? (key : String) (f : Value → Value) (es : List (String × Value)) :
    Option (List (String × Value)) :=
  changeFirst? (hasKey key) (fun e => (e.1, f e.2)) es

/-- The entries after a change, made by searching for the first entry of the key. -/
def Change.write (key : String) (es : List (String × Value)) : Change → List (String × Value)
  | set v => (changeKey? key (fun _ => v) es).getD (es ++ [(key, v)])
  | setDefault v => if es.any (hasKey key) then es else es ++ [(key, v)]
  | append v => (changeKey? key (fun old => accumulate v (some old)) es).getD (es ++ [(key, v)])
  | remove => es.eraseP (hasKey key)
  | normalizeList => (changeKey? key (fun v => .list v.toList) es).getD es
  | assign f => (changeKey? key f es).getD es

/-- The entries after a sequence of steps that starts without entries. -/
def written (ss : List Step) : List (String × Value) :=
  ss.foldl (fun es s => s.change.write s.key es) []

theorem changeKey?_cons (key : String) (f : Value → Value) (e : String × Value)
    (es : List (String × Value)) :
    changeKey? key f (e :: es)
      = if e.1 = key then some ((e.1, f e.2) :: es) else (changeKey? key f es).map (e :: ·) := by
  rw [changeKey?, changeFirst?_cons]
  by_cases h : e.1 = key <;> simp [hasKey, h, changeKey?]

theorem upsertEntry_eq (key : String) (f : Option Value → Value) (es : List (String × Value)) :
    upsertEntry key f es
      = (changeKey? key (fun v => f (some v)) es).getD (es ++ [(key, f none)]) := by
  induction es with
  | nil => rfl
  | cons e es ih =>
    rw [upsertEntry, changeKey?_cons, ih]
    by_cases h : e.1 = key
    · rw [if_pos h, if_pos h, h]
      rfl
    · rw [if_neg h, if_neg h]
      cases changeKey? key (fun v => f (some v)) es <;> rfl

/-- Writing the old value back only tests for the key. -/
theorem changeKey?_id (key : String) (es : List (String × Value)) :
    changeKey? key (fun v => v) es = if es.any (hasKey key) then some es else none := by
  induction es with
  | nil => rfl
  | cons e es ih =>
    rw [changeKey?_cons, ih, List.any_cons]
    by_cases h : e.1 = key
    · rw [if_pos h, if_pos (by simp [hasKey, h])]
    · by_cases hes : es.any (hasKey key) = true <;> simp [hasKey, h, hes]

theorem map_modifyEntry_of_not_mem {key : String} {es : List (String × Value)}
    (h : key ∉ es.map Prod.fst) (f : Value → Value) : es.map (modifyEntry key f) = es := by
  have hsame : ∀ e ∈ es, modifyEntry key f e = e := by
    intro e he
    refine if_neg ?_
    rintro rfl
    exact h (List.mem_map_of_mem he)
  rw [List.map_congr_left hsame, List.map_id'']
  exact fun _ => rfl

/-- Where no key occurs twice, the first entry of a key is the only one to be changed. -/
theorem map_modifyEntry_eq {es : List (String × Value)} (h : (es.map Prod.fst).Nodup)
    (key : String) (f : Value → Value) :
    es.map (modifyEntry key f) = (changeKey? key f es).getD es := by
  induction es with
  | nil => rfl
  | cons e es ih =>
    obtain ⟨hnot, hes⟩ := List.nodup_cons.1 h
    rw [List.map_cons, changeKey?_cons, modifyEntry]
    by_cases hk : e.1 = key
    · rw [if_pos hk, if_pos hk, map_modifyEntry_of_not_mem (hk ▸ hnot)]
      rfl
    · rw [if_neg hk, if_neg hk, ih hes]
      cases changeKey? key f es <;> rfl

/-- Likewise for taking a key out. -/
theorem eraseP_hasKey {es : List (String × Value)} (h : (es.map Prod.fst).Nodup) (key : String) :
    es.eraseP (hasKey key) = es.filter (·.1 != key) := by
  induction es with
  | nil => rfl
  | cons e es ih =>
    obtain ⟨hnot, hes⟩ := List.nodup_cons.1 h
    by_cases hk : e.1 = key
    · have hkeep : es.filter (·.1 != key) = es := by
        refine List.filter_eq_self.2 fun d hd => ?_
        have hne : d.1 ≠ key := fun he => hnot (hk ▸ he ▸ List.mem_map_of_mem hd)
        simpa using hne
      rw [List.eraseP_cons_of_pos (by simpa [hasKey] using hk),
        List.filter_cons_of_neg (by simpa using hk), hkeep]
    · rw [List.eraseP_cons_of_neg (by simpa [hasKey] using hk),
        List.filter_cons_of_pos (by simpa using hk), ih hes]

/-- **The entries of a bag** change as plain entries do. -/
theorem Change.entries_apply (c : Change) (key : String) (p : Properties) :
    (c.apply key p).entries = c.write key p.entries := by
  cases c with
  | set v => exact upsertEntry_eq key _ p.entries
  | setDefault v =>
    refine (upsertEntry_eq key _ p.entries).trans ?_
    simp only [Option.getD_some, Option.getD_none, changeKey?_id, write]
    split <;> rfl
  | append v => exact upsertEntry_eq key _ p.entries
  | remove => exact (eraseP_hasKey p.nodup key).symm
  | normalizeList => exact map_modifyEntry_eq p.nodup key _
  | assign f => exact map_modifyEntry_eq p.nodup key f

theorem entries_stepped (ss : List Step) : (stepped ss).entries = written ss := by
  induction ss using List.reverseRecOn with
  | nil => rfl
  | append_singleton ss s ih =>
    rw [stepped_concat, Change.entries_apply, ih, written, written, List.foldl_append]
    rfl

/-! ## Values -/

theorem Change.get?_apply (c : Change) (key k : String) (p : Properties) :
    (c.apply key p).get? k = if k = key then c.value (p.get? key) else p.get? k := by
  cases c with
  | set v => exact get?_set p key k v
  | setDefault v => exact get?_upsert p key k _
  | append v => exact get?_upsert p key k _
  | remove => exact get?_erase p key k
  | normalizeList =>
    refine (get?_modify p key k _).trans ?_
    by_cases h : k = key
    · rw [if_pos h, if_pos h, h]
      rfl
    · rw [if_neg h, if_neg h]
  | assign f =>
    refine (get?_modify p key k f).trans ?_
    by_cases h : k = key
    · rw [if_pos h, if_pos h, h]
      rfl
    · rw [if_neg h, if_neg h]

/-- The value under a key after a sequence of steps, from what was done under this key alone. -/
def valueAfter (key : String) (ss : List Step) : Option Value :=
  (ss.filter (·.key = key)).foldl (fun old s => s.change.value old) none

theorem get?_stepped (key : String) (ss : List Step) :
    (stepped ss).get? key = valueAfter key ss := by
  induction ss using List.reverseRecOn with
  | nil => rfl
  | append_singleton ss s ih =>
    rw [stepped_concat, Change.get?_apply, ih, valueAfter, valueAfter, List.filter_append,
      List.foldl_append]
    by_cases h : s.key = key
    · subst h
      rw [if_pos rfl, List.filter_cons_of_pos (by simp), ih]
      rfl
    · rw [if_neg fun he => h he.symm, List.filter_cons_of_neg (by simpa using h)]
      rfl

/-- The steps of what works on a key are the steps under this key. -/
theorem steps_about (key : String) (h : List Operation) :
    steps (h.flatMap (Operation.about key)) = (steps h).filter (·.key = key) := by
  unfold steps
  rw [List.flatMap_assoc, List.filter_flatMap]
  refine List.flatMap_congr fun o _ => ?_
  cases o with
  | on k c =>
    by_cases hk : k = key <;> simp [Operation.about, Operation.steps, hk]
  | extend entries =>
    simp only [Operation.about, Operation.steps, List.flatMap_cons, List.flatMap_nil,
      List.append_nil, List.filter_map]
    rfl

/-! ## Keys -/

theorem Change.keys_apply_of_mem {c : Change} {key : String} {p : Properties} (hc : c ≠ remove)
    (h : key ∈ p.keys) : (c.apply key p).keys = p.keys := by
  have hupsert : ∀ f, (p.upsert key f).keys = p.keys := fun f => by
    rw [keys_upsert, if_pos h]
  cases c with
  | set v => exact hupsert _
  | setDefault v => exact hupsert _
  | append v => exact hupsert _
  | remove => exact absurd rfl hc
  | normalizeList => exact keys_modify p key _
  | assign f => exact keys_modify p key f

theorem Change.keys_apply_remove (key : String) (p : Properties) :
    (remove.apply key p).keys = p.keys.filter (· != key) :=
  keys_erase p key

/-- A change leaves the keys where they are, apart from taking one out or pushing a new one. -/
theorem Change.keys_apply_cases (c : Change) (key : String) (p : Properties) :
    (c.apply key p).keys.Sublist p.keys
      ∨ key ∉ p.keys ∧ (c.apply key p).keys = p.keys ++ [key] := by
  have hupsert : ∀ f, (p.upsert key f).keys.Sublist p.keys
      ∨ key ∉ p.keys ∧ (p.upsert key f).keys = p.keys ++ [key] := by
    intro f
    rw [keys_upsert]
    by_cases h : key ∈ p.keys
    · rw [if_pos h]
      exact .inl (List.Sublist.refl _)
    · rw [if_neg h]
      exact .inr ⟨h, rfl⟩
  cases c with
  | set v => exact hupsert _
  | setDefault v => exact hupsert _
  | append v => exact hupsert _
  | remove => exact .inl (keys_apply_remove key p ▸ List.filter_sublist)
  | normalizeList => exact .inl (keys_modify p key _ ▸ List.Sublist.refl _)
  | assign f => exact .inl (keys_modify p key f ▸ List.Sublist.refl _)

/-- The step with the number `i` brings the key in: it was absent before. -/
def EntersAt (ss : List Step) (key : String) (i : Nat) : Prop :=
  key ∉ (stepped (ss.take i)).keys ∧ key ∈ (stepped (ss.take (i + 1))).keys

/-- It is the last step that brings the key in. -/
def LastEntersAt (ss : List Step) (key : String) (i : Nat) : Prop :=
  EntersAt ss key i ∧ ∀ j, i < j → ¬EntersAt ss key j

section Entering

variable {ss : List Step} {s : Step} {key : String} {i j : Nat}

theorem EntersAt.lt_length (h : EntersAt ss key i) : i < ss.length := by
  by_contra hle
  obtain ⟨hbefore, hafter⟩ := h
  rw [List.take_of_length_le (by omega)] at hbefore hafter
  exact hbefore hafter

theorem entersAt_concat_of_lt (h : i < ss.length) :
    EntersAt (ss ++ [s]) key i ↔ EntersAt ss key i := by
  unfold EntersAt
  rw [List.take_append_of_le_length (by omega), List.take_append_of_le_length (by omega)]

theorem entersAt_concat_length :
    EntersAt (ss ++ [s]) key ss.length
      ↔ key ∉ (stepped ss).keys ∧ key ∈ (stepped (ss ++ [s])).keys := by
  have hall : (ss ++ [s]).take (ss.length + 1) = ss ++ [s] :=
    List.take_of_length_le (by simp)
  unfold EntersAt
  rw [List.take_left, hall]

/-- One more step does not bring in a key that is there. -/
theorem lastEntersAt_concat_of_mem (h : key ∈ (stepped ss).keys) :
    LastEntersAt (ss ++ [s]) key i ↔ LastEntersAt ss key i := by
  have henters : ∀ j, EntersAt (ss ++ [s]) key j ↔ EntersAt ss key j := by
    intro j
    rcases Nat.lt_trichotomy j ss.length with hj | rfl | hj
    · exact entersAt_concat_of_lt hj
    · rw [entersAt_concat_length]
      exact ⟨fun he => absurd h he.1, fun he => absurd he.lt_length (Nat.lt_irrefl _)⟩
    · constructor
      · intro he
        have hlt := he.lt_length
        rw [List.length_append, List.length_singleton] at hlt
        omega
      · intro he
        exact absurd he.lt_length (by omega)
  unfold LastEntersAt
  simp only [henters]

/-- A key that comes in with one more step comes in last there. -/
theorem lastEntersAt_concat_length (h : key ∉ (stepped ss).keys)
    (h' : key ∈ (stepped (ss ++ [s])).keys) : LastEntersAt (ss ++ [s]) key ss.length := by
  refine ⟨entersAt_concat_length.2 ⟨h, h'⟩, fun j hj he => ?_⟩
  have hlt := he.lt_length
  rw [List.length_append, List.length_singleton] at hlt
  omega

theorem LastEntersAt.unique (hi : LastEntersAt ss key i) (hj : LastEntersAt ss key j) : i = j := by
  rcases Nat.lt_trichotomy i j with hlt | heq | hlt
  · exact absurd hj.1 (hi.2 j hlt)
  · exact heq
  · exact absurd hi.1 (hj.2 i hlt)

end Entering

/-- The keys are listed in the order in which they last came in. -/
structure ListedAsEntered (ss : List Step) (keys : List String) : Prop where
  /-- Each of them has come in. -/
  entered : ∀ key ∈ keys, ∃ i, LastEntersAt ss key i
  /-- Of two keys, the one listed first came in first. -/
  order : keys.Pairwise fun a b => ∀ i j, LastEntersAt ss a i → LastEntersAt ss b j → i < j

theorem listedAsEntered_stepped (ss : List Step) : ListedAsEntered ss (stepped ss).keys := by
  induction ss using List.reverseRecOn with
  | nil => exact ⟨fun key h => absurd h List.not_mem_nil, List.Pairwise.nil⟩
  | append_singleton ss s ih =>
    have hpairs : ∀ keys : List String, keys.Sublist (stepped ss).keys →
        keys.Pairwise fun a b =>
          ∀ i j, LastEntersAt (ss ++ [s]) a i → LastEntersAt (ss ++ [s]) b j → i < j := by
      intro keys hsub
      refine (ih.order.sublist hsub).imp_of_mem fun ha hb hab i j hi hj => ?_
      rw [lastEntersAt_concat_of_mem (hsub.subset ha)] at hi
      rw [lastEntersAt_concat_of_mem (hsub.subset hb)] at hj
      exact hab i j hi hj
    have hentered : ∀ key ∈ (stepped ss).keys, ∃ i, LastEntersAt (ss ++ [s]) key i := by
      intro key hkey
      obtain ⟨i, hi⟩ := ih.entered key hkey
      exact ⟨i, (lastEntersAt_concat_of_mem hkey).2 hi⟩
    rcases s.change.keys_apply_cases s.key (stepped ss) with hsub | ⟨hnew, hkeys⟩
    · -- No key comes in.
      rw [← stepped_concat] at hsub
      exact ⟨fun key hkey => hentered key (hsub.subset hkey), hpairs _ hsub⟩
    · -- The key of the step comes in, at the end.
      rw [← stepped_concat] at hkeys
      have hlast : LastEntersAt (ss ++ [s]) s.key ss.length :=
        lastEntersAt_concat_length hnew (by rw [hkeys]; simp)
      refine ⟨fun key hkey => ?_, ?_⟩
      · rw [hkeys] at hkey
        rcases List.mem_append.1 hkey with hold | hself
        · exact hentered key hold
        · rw [List.mem_singleton.1 hself]
          exact ⟨ss.length, hlast⟩
      · rw [hkeys]
        refine List.pairwise_append.2
          ⟨hpairs _ (List.Sublist.refl _), List.pairwise_singleton _ _, ?_⟩
        intro a ha b hb i j hi hj
        rw [List.mem_singleton.1 hb] at hj
        rw [hj.unique hlast]
        exact ((lastEntersAt_concat_of_mem ha).1 hi).1.lt_length

/-! ## Histories -/

/-- What is known of a bag after a history. -/
structure InsertionOrdered (h : List Operation) : Prop where
  /-- The entries are those that searching and pushing on a plain list of entries gives. -/
  entries : (run h).entries = written (steps h)
  /-- No key occurs twice among them. -/
  distinct : ((written (steps h)).map Prod.fst).Nodup
  /-- The value under a key comes from what was done under this key, change by change. -/
  value : ∀ key, (run h).get? key = valueAfter key (steps h)
  /-- The operations on other keys do not matter for it. -/
  alone : ∀ key, (run h).get? key = (run (h.flatMap (Operation.about key))).get? key
  /-- A key is listed exactly if there is a value under it. -/
  listed : ∀ key, key ∈ (run h).keys ↔ ((run h).get? key).isSome
  /-- The keys are listed in the order in which they last came in while absent. -/
  ordered : ListedAsEntered (steps h) (run h).keys
  /-- No change but a removal moves a key that is there, nor any other. -/
  kept : ∀ key c, key ∈ (run h).keys → c ≠ .remove →
    (run (h ++ [.on key c])).keys = (run h).keys
  /-- A removal keeps the order of the others. -/
  removed : ∀ key, (run (h ++ [.on key .remove])).keys = (run h).keys.filter (· != key)

/-- **A property bag is an insertion-ordered map**, whatever was done with it. -/
theorem insertionOrdered_run (h : List Operation) : InsertionOrdered h where
  entries := by rw [run_eq, entries_stepped]
  distinct := by
    rw [← entries_stepped]
    exact (stepped (steps h)).nodup
  value key := by rw [run_eq, get?_stepped]
  alone key := by
    rw [run_eq, run_eq, get?_stepped, get?_stepped, steps_about, valueAfter, valueAfter,
      List.filter_filter]
    simp only [Bool.and_self]
  listed key := mem_keys_iff
  ordered := by
    rw [run_eq]
    exact listedAsEntered_stepped (steps h)
  kept key c hkey hc := by
    have hrun : run (h ++ [.on key c]) = c.apply key (run h) := by
      rw [run, List.foldl_append]
      rfl
    rw [hrun, Change.keys_apply_of_mem hc hkey]
  removed key := by
    have hrun : run (h ++ [.on key .remove]) = Change.remove.apply key (run h) := by
      rw [run, List.foldl_append]
      rfl
    rw [hrun, Change.keys_apply_remove]

end Properties
end GameContent
