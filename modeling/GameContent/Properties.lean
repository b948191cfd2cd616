import GameContent.Value.Basic

/-!
# `Properties` — insertion-ordered property bags

A bag maps keys to values and remembers the order in which keys first arrived; artifacts list the
properties of a record in that order. That keys are distinct is part of the type.

## Contents
- **Primitives.** `upsert` writes a key from its old value, in place or at the end; `modify`
  changes a key that is there; `erase` removes one.
- **Operations.** `set`, `setDefault`, `append`, `normalizeList`, `assign` and `extend` are made of
  the primitives.
- **Lemmas.** For each primitive, what it does to `keys` and to `get?`; `entries_setAll` for several
  new keys at once.
-/

namespace GameContent

/-- An insertion-ordered property bag. -/
structure Properties where
  /-- The properties in the order in which their keys arrived. -/
  entries : List (String × Value)
  /-- No key occurs twice. -/
  nodup : (entries.map Prod.fst).Nodup

namespace Properties

/-- The bag without properties. -/
def empty : Properties := ⟨[], List.nodup_nil⟩

instance : EmptyCollection Properties := ⟨empty⟩

instance : Inhabited Properties := ⟨empty⟩

/-- The keys in the order in which they arrived. -/
def keys (p : Properties) : List String :=
  p.entries.map Prod.fst

/-- The number of properties. -/
def size (p : Properties) : Nat :=
  p.entries.length

/-- Whether the bag has no property. -/
def isEmpty (p : Properties) : Bool :=
  p.entries.isEmpty

/-- The value under a key. -/
def get? (p : Properties) (key : String) : Option Value :=
  p.entries.lookup key

/-- Whether the bag has a key. -/
def contains (p : Properties) (key : String) : Bool :=
  (p.get? key).isSome

@[ext] theorem ext {p q : Properties} (h : p.entries = q.entries) : p = q := by
  cases p
  cases q
  simpa using h

/-! ## Primitives -/

/-- The entries with the value of `key` computed from its old value, in place, or added at the
    end when the key is new. -/
def upsertEntry (key : String) (f : Option Value → Value) :
    List (String × Value) → List (String × Value)
  | [] => [(key, f none)]
  | e :: es => if e.1 = key then (key, f (some e.2)) :: es else e :: upsertEntry key f es

theorem map_fst_upsertEntry (key : String) (f : Option Value → Value) (es : List (String × Value)) :
    (upsertEntry key f es).map Prod.fst =
      if key ∈ es.map Prod.fst then es.map Prod.fst else es.map Prod.fst ++ [key] := by
  induction es with
  | nil => simp [upsertEntry]
  | cons e es ih =>
    by_cases h : e.1 = key
    · simp [upsertEntry, h]
    · have h' : ¬ key = e.1 := fun he => h he.symm
      rw [upsertEntry, if_neg h, List.map_cons, ih, List.map_cons]
      by_cases hk : key ∈ es.map Prod.fst
      · rw [if_pos hk, if_pos (List.mem_cons_of_mem _ hk)]
      · rw [if_neg hk, if_neg (by simp only [List.mem_cons]; exact fun hc => hc.elim h' hk)]
        rfl

/-- Writes the value of a key, computed from its old value. A new key goes to the end. -/
def upsert (p : Properties) (key : String) (f : Option Value → Value) : Properties where
  entries := upsertEntry key f p.entries
  nodup := by
    rw [map_fst_upsertEntry]
    by_cases h : key ∈ p.entries.map Prod.fst
    · rw [if_pos h]
      exact p.nodup
    · rw [if_neg h]
      exact List.nodup_append.2 ⟨p.nodup, by simp, by
        intro a ha b hb he
        rw [List.mem_singleton.1 hb] at he
        exact h (he ▸ ha)⟩

/-- One entry with its value changed if it has the key. -/
def modifyEntry (key : String) (f : Value → Value) (e : String × Value) : String × Value :=
  if e.1 = key then (e.1, f e.2) else e

@[simp] theorem fst_modifyEntry (key : String) (f : Value → Value) (e : String × Value) :
    (modifyEntry key f e).1 = e.1 := by
  unfold modifyEntry
  split <;> rfl

/-- Changes the value of a key, if it is there. -/
def modify (p : Properties) (key : String) (f : Value → Value) : Properties where
  entries := p.entries.map (modifyEntry key f)
  nodup := by
    have h : (p.entries.map (modifyEntry key f)).map Prod.fst = p.entries.map Prod.fst := by
      simp [List.map_map, Function.comp_def]
    rw [h]
    exact p.nodup

/-- Removes a key. The others keep their order. -/
def erase (p : Properties) (key : String) : Properties where
  entries := p.entries.filter (·.1 != key)
  nodup := p.nodup.sublist (List.filter_sublist.map _)

/-! ## Operations -/

/-- Sets a property. A key that is there keeps its place. -/
def set (p : Properties) (key : String) (value : Value) : Properties :=
  p.upsert key fun _ => value

/-- Sets a property unless its key is there. -/
def setDefault (p : Properties) (key : String) (value : Value) : Properties :=
  p.upsert key (·.getD value)

/-- The value of a repeated key after one more occurrence: the first value stands alone, a second
    one makes a list of it, and a list grows at its end. -/
def accumulate (value : Value) : Option Value → Value
  | none => value
  | some (.list items) => .list (items ++ [value])
  | some first => .list [first, value]

/-- Adds one more value under a key. -/
def append (p : Properties) (key : String) (value : Value) : Properties :=
  p.upsert key (accumulate value)

/-- Brings a property into list shape, if it is there. -/
def normalizeList (p : Properties) (key : String) : Properties :=
  p.modify key fun v => .list v.toList

/-- Replaces the value of a key, if it is there. -/
def assign (p : Properties) (key : String) (value : Value) : Properties :=
  p.modify key fun _ => value

/-- Sets several properties, in order. -/
def setAll (p : Properties) (entries : List (String × Value)) : Properties :=
  entries.foldl (fun p e => p.set e.1 e.2) p

/-- Sets every property of another bag, in its order. -/
def extend (p q : Properties) : Properties :=
  p.setAll q.entries

/-- The bag that results from setting the given properties in order. -/
def ofList (entries : List (String × Value)) : Properties :=
  empty.setAll entries

/-- Whether two bags have the same keys in the same order with values that agree. -/
def agrees (p q : Properties) : Bool :=
  p.keys == q.keys && Value.agreesAll (p.entries.map Prod.snd) (q.entries.map Prod.snd)

/-! ## Lemmas -/

@[simp] theorem keys_empty : (∅ : Properties).keys = [] := rfl

@[simp] theorem get?_empty (key : String) : (∅ : Properties).get? key = none := rfl

theorem keys_nodup (p : Properties) : p.keys.Nodup := p.nodup

theorem keys_upsert (p : Properties) (key : String) (f : Option Value → Value) :
    (p.upsert key f).keys = if key ∈ p.keys then p.keys else p.keys ++ [key] :=
  map_fst_upsertEntry key f p.entries

theorem lookup_upsertEntry (key k : String) (f : Option Value → Value)
    (es : List (String × Value)) :
    (upsertEntry key f es).lookup k =
      if k = key then some (f (es.lookup key)) else es.lookup k := by
  induction es with
  | nil =>
    by_cases hk : k = key
    · simp [upsertEntry, hk]
    · have hb : (k == key) = false := by simpa using hk
      simp [upsertEntry, List.lookup_cons, hk, hb]
  | cons e es ih =>
    obtain ⟨a, v⟩ := e
    by_cases h : a = key
    · subst h
      by_cases hk : k = a
      · simp [upsertEntry, hk]
      · have hb : (k == a) = false := by simpa using hk
        simp [upsertEntry, List.lookup_cons, hk, hb]
    · have hb : (key == a) = false := by simpa using fun he : key = a => h he.symm
      rw [upsertEntry, if_neg h]
      by_cases hk : k = a
      · subst hk
        have hne : ¬ k = key := h
        simp [hne]
      · have hkb : (k == a) = false := by simpa using hk
        simp only [List.lookup_cons, hkb, hb, ih]

theorem get?_upsert (p : Properties) (key k : String) (f : Option Value → Value) :
    (p.upsert key f).get? k = if k = key then some (f (p.get? key)) else p.get? k :=
  lookup_upsertEntry key k f p.entries

@[simp] theorem keys_modify (p : Properties) (key : String) (f : Value → Value) :
    (p.modify key f).keys = p.keys := by
  simp [modify, keys, List.map_map, Function.comp_def]

theorem lookup_map_modifyEntry (key k : String) (f : Value → Value) (es : List (String × Value)) :
    (es.map (modifyEntry key f)).lookup k =
      if k = key then (es.lookup k).map f else es.lookup k := by
  induction es with
  | nil => simp
  | cons e es ih =>
    obtain ⟨a, v⟩ := e
    by_cases hk : k = a
    · subst hk
      by_cases h : k = key <;> simp [modifyEntry, h]
    · have hb : (k == a) = false := by simpa using hk
      rw [List.map_cons, modifyEntry]
      split <;> simp only [List.lookup_cons, hb, ih]

theorem get?_modify (p : Properties) (key k : String) (f : Value → Value) :
    (p.modify key f).get? k = if k = key then (p.get? k).map f else p.get? k :=
  lookup_map_modifyEntry key k f p.entries

/-- Changes of different keys can be made in either order. -/
theorem modify_comm {key key' : String} (h : key ≠ key') (f f' : Value → Value) (p : Properties) :
    (p.modify key f).modify key' f' = (p.modify key' f').modify key f := by
  have hentry : ∀ e, modifyEntry key' f' (modifyEntry key f e)
      = modifyEntry key f (modifyEntry key' f' e) := by
    intro e
    unfold modifyEntry
    by_cases hk : e.1 = key
    · have hk' : ¬e.1 = key' := fun he => h (hk.symm.trans he)
      rw [if_pos hk, if_neg hk', if_neg hk', if_pos hk]
    · rw [if_neg hk]
      by_cases hk' : e.1 = key'
      · rw [if_pos hk', if_neg hk]
      · rw [if_neg hk', if_neg hk]
  refine ext ?_
  show (p.entries.map _).map _ = (p.entries.map _).map _
  rw [List.map_map, List.map_map]
  exact List.map_congr_left fun e _ => hentry e

@[simp] theorem keys_erase (p : Properties) (key : String) :
    (p.erase key).keys = p.keys.filter (· != key) := by
  simp [erase, keys, List.filter_map, Function.comp_def]

theorem lookup_filter_ne (key k : String) (es : List (String × Value)) :
    (es.filter (·.1 != key)).lookup k = if k = key then none else es.lookup k := by
  induction es with
  | nil => simp
  | cons e es ih =>
    obtain ⟨a, v⟩ := e
    by_cases h : a = key
    · subst h
      rw [List.filter_cons_of_neg (by simp), ih]
      by_cases hk : k = a
      · rw [if_pos hk, if_pos hk]
      · have hb : (k == a) = false := by simpa using hk
        simp only [if_neg hk, List.lookup_cons, hb]
    · by_cases hk : k = a
      · subst hk
        simp [h]
      · have hb : (k == a) = false := by simpa using hk
        simp [h, List.lookup_cons, hb, ih]

theorem get?_erase (p : Properties) (key k : String) :
    (p.erase key).get? k = if k = key then none else p.get? k :=
  lookup_filter_ne key k p.entries

theorem keys_set (p : Properties) (key : String) (value : Value) :
    (p.set key value).keys = if key ∈ p.keys then p.keys else p.keys ++ [key] :=
  keys_upsert p key _

theorem get?_set (p : Properties) (key k : String) (value : Value) :
    (p.set key value).get? k = if k = key then some value else p.get? k :=
  get?_upsert p key k _

theorem upsertEntry_of_not_mem {key : String} {es : List (String × Value)}
    (h : key ∉ es.map Prod.fst) (f : Option Value → Value) :
    upsertEntry key f es = es ++ [(key, f none)] := by
  induction es with
  | nil => rfl
  | cons e es ih =>
    rw [List.map_cons, List.mem_cons, not_or] at h
    rw [upsertEntry, if_neg fun he => h.1 he.symm, ih h.2, List.cons_append]

/-- New keys that differ from each other are added at the end, in order. -/
theorem entries_setAll {p : Properties} {es : List (String × Value)}
    (h : (p.keys ++ es.map Prod.fst).Nodup) : (p.setAll es).entries = p.entries ++ es := by
  induction es generalizing p with
  | nil => exact (List.append_nil _).symm
  | cons e es ih =>
    rw [List.map_cons, List.append_cons] at h
    have hnew : e.1 ∉ p.keys := fun hm =>
      (List.nodup_append.1 (List.nodup_append.1 h).1).2.2 _ hm _ List.mem_cons_self rfl
    have hentries : (p.set e.1 e.2).entries = p.entries ++ [e] := upsertEntry_of_not_mem hnew _
    have hkeys : (p.set e.1 e.2).keys = p.keys ++ [e.1] := by rw [keys_set, if_neg hnew]
    show ((p.set e.1 e.2).setAll es).entries = _
    rw [ih (hkeys ▸ h), hentries, List.append_assoc, List.singleton_append]

theorem entries_ofList {es : List (String × Value)} (h : (es.map Prod.fst).Nodup) :
    (ofList es).entries = es :=
  entries_setAll h

@[simp] theorem empty_extend (p : Properties) : (∅ : Properties).extend p = p :=
  ext (entries_setAll p.nodup)

end Properties
end GameContent
