import GameContent.Properties
import GameContent.Proofs.FirstOccurrences

/-!
# `Proofs.Properties.Entries` — the entries of a property bag

The entries of a key are the one that a lookup finds (`filter_entries`), which is the one that was
set last (`get?_setAll`). The keys are those that were written to, in the order in which they first
occur (`keys_upsertAll`). What holds of all entries is kept by writing an entry that it holds of
(`forall_entries_set` and its companions).
-/

namespace GameContent
namespace Properties

/-! ## The entries of one key -/

theorem filter_entries (p : Properties) (key : String) :
    p.entries.filter (·.1 = key) = ((p.get? key).map (key, ·)).toList := by
  obtain ⟨es, hnodup⟩ := p
  show es.filter (·.1 = key) = ((es.lookup key).map (key, ·)).toList
  induction es with
  | nil => rfl
  | cons e es ih =>
    obtain ⟨k, v⟩ := e
    obtain ⟨hnot, hes⟩ := List.nodup_cons.1 hnodup
    by_cases hk : k = key
    · subst hk
      have hnone : es.filter (·.1 = k) = [] := by
        refine List.filter_eq_nil_iff.2 fun e he => ?_
        have hne : e.1 ≠ k := by
          rintro rfl
          exact hnot (List.mem_map.2 ⟨e, he, rfl⟩)
        simpa using hne
      rw [List.filter_cons_of_pos (by simp), hnone, List.lookup_cons_self]
      rfl
    · have hb : (key == k) = false := by simpa using fun he : key = k => hk he.symm
      rw [List.filter_cons_of_neg (by simpa using hk), ih hes, List.lookup_cons, hb]

/-- What is made of the entries of one key is made of the value under it. -/
theorem flatMap_entries {β : Type} (p : Properties) (key : String) (f : Value → List β) :
    (p.entries.flatMap fun e => if e.1 = key then f e.2 else [])
      = ((p.get? key).map f).getD [] := by
  have hfilter : (p.entries.flatMap fun e => if e.1 = key then f e.2 else [])
      = (p.entries.filter (·.1 = key)).flatMap fun e => f e.2 := by
    induction p.entries with
    | nil => rfl
    | cons e es ih =>
      rw [List.flatMap_cons, ih]
      by_cases hk : e.1 = key
      · rw [if_pos hk, List.filter_cons_of_pos (by simpa using hk), List.flatMap_cons]
      · rw [if_neg hk, List.filter_cons_of_neg (by simpa using hk), List.nil_append]
  rw [hfilter, filter_entries]
  cases p.get? key <;> simp

/-- Of several values that are set under a key the last one stays. -/
theorem get?_setAll (p : Properties) (es : List (String × Value)) (key : String) :
    (p.setAll es).get? key = (es.reverse.lookup key).or (p.get? key) := by
  induction es generalizing p with
  | nil => rfl
  | cons e es ih =>
    show ((p.set e.1 e.2).setAll es).get? key = _
    rw [ih, get?_set, List.reverse_cons, List.lookup_append, Option.or_assoc, List.lookup_cons]
    by_cases hk : key = e.1
    · rw [if_pos hk, beq_iff_eq.2 hk, Option.some_or]
    · rw [if_neg hk, beq_eq_false_iff_ne.2 hk, List.lookup_nil, Option.none_or]

/-- Where no key occurs twice, the entry of a key is found from either end. -/
theorem lookup_reverse {es : List (String × Value)} (h : (es.map Prod.fst).Nodup) (key : String) :
    es.reverse.lookup key = es.lookup key := by
  induction es with
  | nil => rfl
  | cons e es ih =>
    obtain ⟨hnot, hes⟩ := List.nodup_cons.1 h
    rw [List.reverse_cons, List.lookup_append, ih hes, List.lookup_cons, List.lookup_cons]
    by_cases hk : key = e.1
    · have hnone : es.lookup key = none := by
        rw [List.lookup_eq_none_iff]
        intro d hd
        have hne : key ≠ d.1 := fun he => hnot (hk ▸ he ▸ List.mem_map_of_mem hd)
        simpa using hne
      rw [hnone, Option.none_or, beq_iff_eq.2 hk]
    · rw [beq_eq_false_iff_ne.2 hk, List.lookup_nil, Option.or_none]

/-- The properties of the other bag come over those that were there. -/
theorem get?_extend (p q : Properties) (key : String) :
    (p.extend q).get? key = (q.get? key).or (p.get? key) := by
  rw [extend, get?_setAll, lookup_reverse q.nodup]
  rfl

/-! ## Keys -/

theorem mem_keys_iff {p : Properties} {key : String} : key ∈ p.keys ↔ (p.get? key).isSome := by
  rw [get?, List.lookup_isSome_iff, keys, List.mem_map]
  refine exists_congr fun e => and_congr_right fun _ => ?_
  rw [beq_iff_eq, eq_comm]

/-- Writing under several keys puts those that are new at the end, in the order in which they first
    occur. -/
theorem keys_upsertAll {α : Type} (p : Properties) (key : α → String)
    (f : α → Option Value → Value) (as : List α) :
    (as.foldl (fun p a => p.upsert (key a) (f a)) p).keys
      = p.keys ++ firstOccurrences id p.keys (as.map key) := by
  have hfold : (as.foldl (fun p a => p.upsert (key a) (f a)) p).keys
      = (as.map key).foldl (fun seen k => if k ∈ seen then seen else seen ++ [k]) p.keys := by
    induction as generalizing p with
    | nil => rfl
    | cons a as ih =>
      rw [List.foldl_cons, ih, keys_upsert]
      rfl
  rw [hfold, foldl_eq_append_firstOccurrences]

/-- So the keys of a bag stay those that were ever written to, in the order in which they first
    occur. -/
theorem keys_upsertAll_eraseDups {α : Type} {p : Properties} {written : List String}
    (h : p.keys = written.eraseDups) (key : α → String) (f : α → Option Value → Value)
    (as : List α) :
    (as.foldl (fun p a => p.upsert (key a) (f a)) p).keys
      = (written ++ as.map key).eraseDups := by
  rw [keys_upsertAll, h, eraseDups_eq_firstOccurrences (written ++ as.map key),
    firstOccurrences_append, ← eraseDups_eq_firstOccurrences]
  refine congrArg _ (firstOccurrences_congr (fun k => ?_) (as.map key))
  simp

/-! ## What holds of all entries -/

section All

variable {P : String × Value → Prop} {p : Properties} {key : String}

theorem forall_upsertEntry {f : Option Value → Value} {es : List (String × Value)}
    (hes : ∀ e ∈ es, P e) (hnew : ∀ old, P (key, f old)) : ∀ e ∈ upsertEntry key f es, P e := by
  induction es with
  | nil => exact List.forall_mem_singleton.2 (hnew none)
  | cons e es ih =>
    obtain ⟨he, hes⟩ := List.forall_mem_cons.1 hes
    rw [upsertEntry]
    split
    · exact List.forall_mem_cons.2 ⟨hnew _, hes⟩
    · exact List.forall_mem_cons.2 ⟨he, ih hes⟩

theorem forall_entries_set {value : Value} (hp : ∀ e ∈ p.entries, P e) (hnew : P (key, value)) :
    ∀ e ∈ (p.set key value).entries, P e :=
  forall_upsertEntry hp fun _ => hnew

theorem forall_entries_setAll {es : List (String × Value)} (hp : ∀ e ∈ p.entries, P e)
    (hes : ∀ e ∈ es, P e) : ∀ e ∈ (p.setAll es).entries, P e := by
  induction es generalizing p with
  | nil => exact hp
  | cons e es ih =>
    obtain ⟨he, hes⟩ := List.forall_mem_cons.1 hes
    exact ih (forall_entries_set hp he) hes

theorem forall_entries_modify {f : Value → Value} (hp : ∀ e ∈ p.entries, P e)
    (hchange : ∀ v, P (key, v) → P (key, f v)) : ∀ e ∈ (p.modify key f).entries, P e := by
  intro e he
  obtain ⟨d, hd, rfl⟩ := List.mem_map.1 he
  obtain ⟨k, v⟩ := d
  unfold modifyEntry
  split
  · rename_i hk
    obtain rfl : k = key := hk
    exact hchange v (hp _ hd)
  · exact hp _ hd

end All

end Properties
end GameContent
