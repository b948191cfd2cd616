import Mathlib.Data.List.Forall2
import Mathlib.Data.List.Induction
import Mathlib.Data.Set.Function

/-!
# `Proofs.FirstOccurrences` — keeping what is met for the first time

Several loops go through a list and keep an element only if none before it has the same key. What
they keep is said here once, for any key: `firstOccurrences_eq` and `forall₂_firstOccurrences` in
terms of the keys and of the first element of each, `firstOccurrences_append` in the order in which
the loop goes.
-/

namespace GameContent

variable {α β γ : Type} [DecidableEq β] {key : α → β} {seen : List β}

/-- The elements whose key is not among those seen and not that of an element before them. -/
def firstOccurrences (key : α → β) (seen : List β) : List α → List α
  | [] => []
  | a :: as =>
    if key a ∈ seen then firstOccurrences key seen as
    else a :: firstOccurrences key (key a :: seen) as

theorem firstOccurrences_cons_of_mem {a : α} (h : key a ∈ seen) (as : List α) :
    firstOccurrences key seen (a :: as) = firstOccurrences key seen as := if_pos h

theorem firstOccurrences_cons_of_not_mem {a : α} (h : key a ∉ seen) (as : List α) :
    firstOccurrences key seen (a :: as) = a :: firstOccurrences key (key a :: seen) as := if_neg h

/-- The order in which keys were seen does not matter. -/
theorem firstOccurrences_congr {seen' : List β} (h : ∀ b, b ∈ seen ↔ b ∈ seen') (as : List α) :
    firstOccurrences key seen as = firstOccurrences key seen' as := by
  induction as generalizing seen seen' with
  | nil => rfl
  | cons a as ih =>
    have hcons : ∀ b, b ∈ key a :: seen ↔ b ∈ key a :: seen' := fun b => by
      rw [List.mem_cons, List.mem_cons, h]
    by_cases ha : key a ∈ seen
    · rw [firstOccurrences_cons_of_mem ha, firstOccurrences_cons_of_mem ((h _).1 ha), ih h]
    · rw [firstOccurrences_cons_of_not_mem ha,
        firstOccurrences_cons_of_not_mem fun hc => ha ((h _).2 hc), ih hcons]

/-- A second list is gone through with the keys of the first one seen. -/
theorem firstOccurrences_append (as bs : List α) :
    firstOccurrences key seen (as ++ bs)
      = firstOccurrences key seen as ++ firstOccurrences key (as.map key ++ seen) bs := by
  induction as generalizing seen with
  | nil => rfl
  | cons a as ih =>
    by_cases ha : key a ∈ seen
    · rw [List.cons_append, firstOccurrences_cons_of_mem ha, firstOccurrences_cons_of_mem ha, ih]
      refine congrArg _ (firstOccurrences_congr (fun b => ?_) bs)
      simp only [List.map_cons, List.mem_cons, List.mem_append]
      constructor
      · rintro (hb | hb)
        · exact .inl (.inr hb)
        · exact .inr hb
      · rintro ((rfl | hb) | hb)
        · exact .inr ha
        · exact .inl hb
        · exact .inr hb
    · rw [List.cons_append, firstOccurrences_cons_of_not_mem ha,
        firstOccurrences_cons_of_not_mem ha, ih, List.cons_append]
      refine congrArg _ (congrArg _ (firstOccurrences_congr (fun b => ?_) bs))
      simp only [List.map_cons, List.mem_cons, List.mem_append]
      rw [or_left_comm, or_assoc]

/-- One more element is kept if its key is new. -/
theorem firstOccurrences_concat (as : List α) (a : α) :
    firstOccurrences key [] (as ++ [a])
      = firstOccurrences key [] as ++ if key a ∈ as.map key then [] else [a] := by
  rw [firstOccurrences_append, List.append_nil]
  rfl

/-- Elements can be replaced by others whose keys are told apart like theirs. -/
theorem map_firstOccurrences_of_injOn {δ : Type} [DecidableEq δ] {f : α → γ} {key' : γ → δ}
    {name : β → δ} {S : Set β} (hname : S.InjOn name) {as : List α}
    (hkey : ∀ a ∈ as, key' (f a) = name (key a)) (has : ∀ a ∈ as, key a ∈ S)
    (hseen : ∀ b ∈ seen, b ∈ S) :
    (firstOccurrences key seen as).map f
      = firstOccurrences key' (seen.map name) (as.map f) := by
  induction as generalizing seen with
  | nil => rfl
  | cons a as ih =>
    obtain ⟨hkeya, hkey⟩ := List.forall_mem_cons.1 hkey
    obtain ⟨ha, has⟩ := List.forall_mem_cons.1 has
    rw [List.map_cons]
    by_cases hmem : key a ∈ seen
    · have hmem' : key' (f a) ∈ seen.map name := by
        rw [hkeya]
        exact List.mem_map_of_mem hmem
      rw [firstOccurrences_cons_of_mem hmem, firstOccurrences_cons_of_mem hmem',
        ih hkey has hseen]
    · have hmem' : key' (f a) ∉ seen.map name := by
        rw [hkeya]
        intro hm
        obtain ⟨b, hb, he⟩ := List.mem_map.1 hm
        exact hmem (hname (hseen b hb) ha he ▸ hb)
      have hrest := ih hkey has (List.forall_mem_cons.2 ⟨ha, hseen⟩)
      rw [List.map_cons] at hrest
      rw [firstOccurrences_cons_of_not_mem hmem, firstOccurrences_cons_of_not_mem hmem',
        List.map_cons, hkeya, hrest]

/-- Elements can be replaced by others with the same keys. -/
theorem map_firstOccurrences {f : α → γ} {key' : γ → β} (h : ∀ a, key' (f a) = key a)
    (as : List α) :
    (firstOccurrences key seen as).map f = firstOccurrences key' seen (as.map f) := by
  have hmap : (firstOccurrences key seen as).map f
      = firstOccurrences key' (seen.map id) (as.map f) :=
    map_firstOccurrences_of_injOn (Set.injOn_id Set.univ) (fun a _ => h a) (fun _ _ => trivial)
      fun _ _ => trivial
  rw [List.map_id] at hmap
  exact hmap

/-- **What is kept**: for each new key, in the order in which the keys first occur, the first
    element that has it. -/
theorem firstOccurrences_eq (as : List α) :
    firstOccurrences key seen as
      = ((as.map key).filter (· ∉ seen)).eraseDups.filterMap fun k =>
          as.find? fun a => key a = k := by
  induction as generalizing seen with
  | nil => rfl
  | cons a as ih =>
    -- For a key other than that of `a`, the search goes on behind `a`.
    have hskip : ∀ ks : List β, key a ∉ ks →
        ks.filterMap (fun k => (a :: as).find? fun b => key b = k)
          = ks.filterMap fun k => as.find? fun b => key b = k := by
      intro ks hks
      refine List.filterMap_congr fun k hk => ?_
      have hne : key a ≠ k := fun he => hks (he ▸ hk)
      rw [List.find?_cons, decide_eq_false hne]
    by_cases ha : key a ∈ seen
    · rw [firstOccurrences_cons_of_mem ha, ih, List.map_cons,
        List.filter_cons_of_neg (by simpa using ha), hskip]
      rw [List.mem_eraseDups, List.mem_filter]
      exact fun h => absurd ha (by simpa using h.2)
    · rw [firstOccurrences_cons_of_not_mem ha, ih, List.map_cons,
        List.filter_cons_of_pos (by simpa using ha), List.eraseDups_cons, List.filter_filter,
        List.filterMap_cons_some (b := a) (by simp), hskip]
      · congr 2
        refine congrArg _ (List.filter_congr fun k _ => ?_)
        by_cases hk : k = key a <;> simp [hk]
      · rw [List.mem_eraseDups, List.mem_filter]
        exact fun h => absurd h.2 (by simp)

/-- With nothing but keys, what is kept is the new keys without repetition. -/
theorem firstOccurrences_id (seen as : List β) :
    firstOccurrences id seen as = (as.filter (· ∉ seen)).eraseDups := by
  rw [firstOccurrences_eq, List.map_id]
  have hfound : ∀ k ∈ (as.filter (· ∉ seen)).eraseDups, (as.find? fun a => id a = k) = some k := by
    intro k hk
    have hmem : k ∈ as := (List.mem_filter.1 (List.mem_eraseDups.1 hk)).1
    cases hfind : as.find? fun a => id a = k with
    | none => exact absurd (List.find?_eq_none.1 hfind k hmem) (by simp)
    | some a =>
      have ha : a = k := by simpa using List.find?_some hfind
      rw [ha]
  rw [List.filterMap_congr hfound, List.filterMap_some]

/-- Key by key, what is kept is the first element that has the key. -/
theorem forall₂_firstOccurrences (as : List α) :
    List.Forall₂ (fun k a => (as.find? fun b => key b = k) = some a) (as.map key).eraseDups
      (firstOccurrences key [] as) := by
  have hall : ∀ ks : List β, (∀ k ∈ ks, k ∈ as.map key) →
      List.Forall₂ (fun k a => (as.find? fun b => key b = k) = some a) ks
        (ks.filterMap fun k => as.find? fun b => key b = k) := by
    intro ks hks
    induction ks with
    | nil => exact List.Forall₂.nil
    | cons k ks ih =>
      obtain ⟨hk, hks⟩ := List.forall_mem_cons.1 hks
      obtain ⟨a, ha, hkey⟩ := List.mem_map.1 hk
      cases hfind : as.find? fun b => key b = k with
      | none => exact absurd hkey (by simpa using List.find?_eq_none.1 hfind a ha)
      | some b =>
        rw [List.filterMap_cons_some (f := fun k => as.find? fun b => key b = k) hfind]
        exact List.Forall₂.cons hfind (ih hks)
  rw [firstOccurrences_eq]
  simp only [List.not_mem_nil, not_false_eq_true, decide_true, List.filter_true]
  exact hall _ fun k hk => List.mem_eraseDups.1 hk

/-- Every new key is kept once: it is kept, … -/
theorem mem_map_firstOccurrences {as : List α} {b : β} :
    b ∈ (firstOccurrences key seen as).map key ↔ b ∈ as.map key ∧ b ∉ seen := by
  induction as generalizing seen with
  | nil => simp [firstOccurrences]
  | cons a as ih =>
    by_cases ha : key a ∈ seen
    · rw [firstOccurrences_cons_of_mem ha, ih, List.map_cons, List.mem_cons]
      refine and_congr_left fun hb => ⟨.inr, fun h => h.elim (fun he => ?_) id⟩
      exact absurd (he ▸ ha) hb
    · rw [firstOccurrences_cons_of_not_mem ha, List.map_cons, List.map_cons, List.mem_cons,
        List.mem_cons, ih, List.mem_cons, not_or]
      constructor
      · rintro (rfl | ⟨hb, -, hseen⟩)
        · exact ⟨.inl rfl, ha⟩
        · exact ⟨.inr hb, hseen⟩
      · rintro ⟨hb, hseen⟩
        by_cases he : b = key a
        · exact .inl he
        · exact .inr ⟨hb.resolve_left he, he, hseen⟩

/-- … and it is not kept twice. -/
theorem nodup_map_firstOccurrences (as : List α) :
    ((firstOccurrences key seen as).map key).Nodup := by
  induction as generalizing seen with
  | nil => exact List.nodup_nil
  | cons a as ih =>
    by_cases ha : key a ∈ seen
    · rw [firstOccurrences_cons_of_mem ha]
      exact ih
    · rw [firstOccurrences_cons_of_not_mem ha, List.map_cons, List.nodup_cons,
        mem_map_firstOccurrences]
      exact ⟨fun h => h.2 List.mem_cons_self, ih⟩

/-- A test that looks at the key only is passed first by the same element. -/
theorem find?_firstOccurrences {p : α → Bool} (hp : ∀ a b, key a = key b → p a = p b)
    (as : List α) :
    (firstOccurrences key seen as).find? p
      = as.find? fun a => decide (key a ∉ seen) && p a := by
  induction as generalizing seen with
  | nil => rfl
  | cons a as ih =>
    by_cases ha : key a ∈ seen
    · rw [firstOccurrences_cons_of_mem ha, ih, List.find?_cons]
      simp [ha]
    · rw [firstOccurrences_cons_of_not_mem ha, List.find?_cons, List.find?_cons, ih]
      cases hpa : p a with
      | true => simp [ha]
      | false =>
        -- Elements with the key of this one do not pass the test either.
        simp only [Bool.and_false]
        refine congrArg (as.find? ·) (funext fun b => ?_)
        by_cases hb : key b = key a
        · simp [hp b a hb, hpa]
        · simp [hb]

/-- Cutting a list where a test first fails cuts what is kept there as well. -/
theorem takeWhile_firstOccurrences {p : β → Bool} (hseen : ∀ b ∈ seen, p b = true) (as : List β) :
    (firstOccurrences id seen as).takeWhile p = firstOccurrences id seen (as.takeWhile p) := by
  induction as generalizing seen with
  | nil => rfl
  | cons a as ih =>
    by_cases ha : a ∈ seen
    · rw [firstOccurrences_cons_of_mem ha, ih hseen, List.takeWhile_cons_of_pos (hseen a ha),
        firstOccurrences_cons_of_mem ha]
    · rw [firstOccurrences_cons_of_not_mem ha]
      by_cases hpa : p a = true
      · have hcons : ∀ b ∈ id a :: seen, p b = true := List.forall_mem_cons.2 ⟨hpa, hseen⟩
        rw [List.takeWhile_cons_of_pos hpa, List.takeWhile_cons_of_pos hpa,
          firstOccurrences_cons_of_not_mem ha, ih hcons]
      · rw [List.takeWhile_cons_of_neg hpa, List.takeWhile_cons_of_neg hpa, firstOccurrences]

/-- The loop that adds the new elements of a list at the end. -/
theorem foldl_eq_append_firstOccurrences (seen as : List β) :
    as.foldl (fun seen a => if a ∈ seen then seen else seen ++ [a]) seen
      = seen ++ firstOccurrences id seen as := by
  induction as generalizing seen with
  | nil => exact (List.append_nil seen).symm
  | cons a as ih =>
    rw [List.foldl_cons, firstOccurrences, id]
    by_cases ha : a ∈ seen
    · rw [if_pos ha, if_pos ha, ih]
    · rw [if_neg ha, if_neg ha, ih, List.append_assoc]
      refine congrArg _ (congrArg _ (firstOccurrences_congr (fun b => ?_) as))
      rw [List.mem_append, List.mem_singleton, List.mem_cons, or_comm]

/-! ## Lists without repetition -/

theorem eraseDups_eq_firstOccurrences (as : List β) :
    as.eraseDups = firstOccurrences id [] as := by
  rw [firstOccurrences_id]
  simp

theorem nodup_eraseDups (as : List β) : as.eraseDups.Nodup := by
  have hkept : ((firstOccurrences id [] as).map id).Nodup := nodup_map_firstOccurrences as
  rwa [eraseDups_eq_firstOccurrences, ← List.map_id (firstOccurrences id [] as)]

theorem eraseDups_concat (as : List β) (a : β) :
    (as ++ [a]).eraseDups = as.eraseDups ++ if a ∈ as then [] else [a] := by
  rw [eraseDups_eq_firstOccurrences, firstOccurrences_concat, List.map_id,
    ← eraseDups_eq_firstOccurrences]
  rfl

/-- What is left of a list without its repetitions is in the order in which it first occurs. -/
theorem pairwise_idxOf_eraseDups (as : List β) :
    as.eraseDups.Pairwise fun a b => as.idxOf a < as.idxOf b := by
  -- An element at the end moves nothing that is there, so the induction takes it off.
  induction as using List.reverseRecOn with
  | nil => exact List.Pairwise.nil
  | append_singleton as c ih =>
    have hold : as.eraseDups.Pairwise fun a b => (as ++ [c]).idxOf a < (as ++ [c]).idxOf b := by
      refine ih.imp_of_mem fun ha hb hab => ?_
      rwa [List.idxOf_append_of_mem (List.mem_eraseDups.1 ha),
        List.idxOf_append_of_mem (List.mem_eraseDups.1 hb)]
    rw [eraseDups_concat]
    by_cases hc : c ∈ as
    · rwa [if_pos hc, List.append_nil]
    · rw [if_neg hc]
      refine List.pairwise_append.2 ⟨hold, List.pairwise_singleton _ _, ?_⟩
      intro a ha b hb
      rw [List.mem_singleton.1 hb, List.idxOf_append_of_notMem hc]
      have hmem : a ∈ as := List.mem_eraseDups.1 ha
      rw [List.idxOf_append_of_mem hmem]
      exact Nat.lt_of_lt_of_le (List.idxOf_lt_length_of_mem hmem) (Nat.le_add_right _ _)

end GameContent
