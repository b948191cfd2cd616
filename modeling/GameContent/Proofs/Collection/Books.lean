import GameContent.Proofs.Collection.Finalizing
import Mathlib.Algebra.GroupWithZero.Nat

/-!
# `Proofs.Collection.Books` — two books instead of one

The recipes of two books can be finalized one book after the other, or as a single book. Both ways
declare the same items, and both write lists onto the records of the same results. What the lists
say is not always the same. A list begins with what the record has under the key without the mark,
and wiring never writes there. So the second book does not read what the first one wrote, and
puts its own lists in the place of those (`ListsWritten.trans`). The ways of combining a result back
that the first book declares are lost if the second book declares some for the same result, and only
then (`finalize_two_books`).

Authors who want all of them put all their recipes into one book. That is what a book is for: it
collects the declarations until nothing is to be added any more.

## Contents
- **Lists.** `lists?` reads the lists of a result off a context.
- **Records.** What a record looks like after both books, and after the single one.
- **Contexts.** `Wires.findRecord?_eq` says what is found once the results are wired.
- **Calls.** `exists_wireAll_of_finalize` makes two loops of two calls, `finalize_two_books` compares
  them with the single call.
-/

namespace GameContent

namespace RecipeBook

variable {book b₁ b₂ : RecipeBook} {ctx ctx' : Context} {result : RecordRef}

/-- The three lists on the record that is found for a result, if one is found. -/
def lists? (result : RecordRef) (ctx : Context) : Option (List (Option Value)) :=
  (ctx.findRecord? result.id).map fun r => listKeys.map r.properties.get?

/-! ## Joined lists -/

/-- Every entry of a joined list takes its own length and a comma, except for the last comma. -/
theorem length_joined {entries : List String} (h : entries ≠ []) :
    (",".intercalate entries).length + 1 = (entries.map fun entry => entry.length + 1).sum := by
  induction entries with
  | nil => exact absurd rfl h
  | cons first rest ih =>
    cases rest with
    | nil => simp
    | cons second rest =>
      have hcomma : ",".length = 1 := rfl
      rw [String.intercalate_cons_cons, String.length_append, String.length_append, List.map_cons,
        List.sum_cons, ← ih (List.cons_ne_nil _ _), hcomma]
      omega

/-- A joined list is not the same without some of its entries, unless nothing is left. -/
theorem joined_ne {before lost after : List String} (hlost : lost ≠ []) (hafter : after ≠ []) :
    ",".intercalate (before ++ after) ≠ ",".intercalate (before ++ (lost ++ after)) := by
  intro h
  have hlength := congrArg (fun text => text.length + 1) h
  rw [length_joined (by simp [hafter]), length_joined (by simp [hafter])] at hlength
  simp only [List.map_append, List.sum_append] at hlength
  obtain ⟨first, rest, rfl⟩ := List.exists_cons_of_ne_nil hlost
  rw [List.map_cons, List.sum_cons] at hlength
  omega

/-! ## Records -/

/-- Writing the lists leaves alone what they begin with. -/
theorem ListsWritten.existing_eq {old new : Record} (h : book.ListsWritten result old new)
    {key : String} (hkey : key ∉ listKeys) :
    Recipe.existing new.properties key = Recipe.existing old.properties key := by
  rw [Recipe.existing, Recipe.existing, h.others key hkey]

/-- All three lists are there once they are written. -/
theorem ListsWritten.mem_keys {old new : Record} (h : book.ListsWritten result old new)
    {key : String} (hkey : key ∈ listKeys) : key ∈ new.properties.keys := by
  rw [h.keys, List.mem_append, List.mem_filter]
  by_cases hold : key ∈ old.properties.keys
  · exact Or.inl hold
  · exact Or.inr ⟨hkey, by simpa using hold⟩

/-- **The last lists count.** Lists that are written onto a record with lists take their place. -/
theorem ListsWritten.trans {old mid new : Record} (h₁ : b₁.ListsWritten result old mid)
    (h₂ : b₂.ListsWritten result mid new) : b₂.ListsWritten result old new where
  typeName := h₂.typeName.trans h₁.typeName
  identity := h₂.identity.trans h₁.identity
  subrecords := h₂.subrecords.trans h₁.subrecords
  combineWith := by rw [h₂.combineWith, h₁.existing_eq (by decide)]
  toMake := by rw [h₂.toMake, h₁.existing_eq (by decide)]
  consume := by rw [h₂.consume, h₁.existing_eq (by decide)]
  others key hkey := (h₂.others key hkey).trans (h₁.others key hkey)
  keys := by
    have hnone : (listKeys.filter fun key => key ∉ mid.properties.keys) = [] := by
      rw [List.filter_eq_nil_iff]
      intro key hkey
      simpa using h₁.mem_keys hkey
    rw [h₂.keys, hnone, List.append_nil, h₁.keys]

theorem waysBack_append (b₁ b₂ : RecipeBook) (result : RecordRef) :
    waysBack (b₁ ++ b₂) result = b₁.waysBack result ++ b₂.waysBack result := by
  rw [waysBack, List.filter_append, List.flatMap_append]
  rfl

theorem mem_backResults_append :
    result ∈ backResults (b₁ ++ b₂) ↔ result ∈ backResults b₁ ∨ result ∈ backResults b₂ := by
  rw [backResults, List.filter_append, List.map_append, List.mem_append]
  rfl

/-- There are ways of combining a result back unless no recipe with partners has it. -/
theorem waysBack_eq_nil_iff : book.waysBack result = [] ↔ result ∉ book.backResults := by
  rw [waysBack, List.flatMap_eq_nil_iff]
  simp only [backResults, List.mem_map, List.mem_filter, List.map_eq_nil_iff, decide_eq_true_eq,
    Bool.not_eq_true', List.isEmpty_eq_false_iff]
  constructor
  · rintro hnone ⟨r, ⟨hr, hpartners⟩, hresult⟩
    exact hpartners (hnone r ⟨hr, hresult⟩)
  · rintro hnone r ⟨hr, hresult⟩
    by_contra hpartners
    exact hnone ⟨r, ⟨hr, hpartners⟩, hresult⟩

/-- What is written depends on the ways of combining the result back only. -/
theorem wireRecord_congr (h : b₁.waysBack result = b₂.waysBack result) :
    b₁.wireRecord result = b₂.wireRecord result := by
  funext r
  rw [wireRecord, wireRecord, reversalsOf_eq, reversalsOf_eq, h]

/-- When both books have ways of combining the result back, those of the first are lost. -/
theorem lists_wireRecord_ne (h₁ : result ∈ backResults b₁) (h₂ : result ∈ backResults b₂)
    (r : Record) :
    listKeys.map (b₂.wireRecord result (b₁.wireRecord result r)).properties.get?
      ≠ listKeys.map (wireRecord (b₁ ++ b₂) result r).properties.get? := by
  have hapart : b₂.ListsWritten result r (b₂.wireRecord result (b₁.wireRecord result r)) :=
    (listsWritten_wireRecord result r).trans (listsWritten_wireRecord result _)
  have htogether : ListsWritten (b₁ ++ b₂) result r (wireRecord (b₁ ++ b₂) result r) :=
    listsWritten_wireRecord result r
  intro h
  -- It is enough to look at the partners.
  have hpartners := (List.cons.inj h).1
  rw [hapart.combineWith, htogether.combineWith, waysBack_append, List.map_append] at hpartners
  refine joined_ne ?_ ?_ (Value.str.inj (Option.some.inj hpartners))
  · rw [ne_eq, List.map_eq_nil_iff, waysBack_eq_nil_iff, not_not]
    exact h₁
  · rw [ne_eq, List.map_eq_nil_iff, waysBack_eq_nil_iff, not_not]
    exact h₂

/-! ## Contexts -/

/-- Wiring records leaves their ids alone, so they are found where they were. -/
theorem Wires.findIdx?_eq {results : List RecordRef} (h : book.Wires results ctx ctx')
    (id : String) : ctx'.records.findIdx? (Record.hasId id)
      = ctx.records.findIdx? (Record.hasId id) := by
  refine Context.findIdx?_eq_of_map_id?_eq (List.ext_getElem? fun i => ?_) id
  rw [List.getElem?_map, List.getElem?_map]
  by_cases hwired : ∃ result ∈ results,
      ctx.records.findIdx? (Record.hasId result.id) = some i
  · obtain ⟨result, hresult, hi⟩ := hwired
    rw [h.found result hresult i hi, Option.map_map]
    rfl
  · rw [h.others i]
    intro result hresult hi
    exact hwired ⟨result, hresult, hi⟩

/-- **What is found.** The record of a result that is wired has its lists, and the one that is found
    for any other id is as it was. -/
theorem Wires.findRecord?_eq {results : List RecordRef} (h : book.Wires results ctx ctx')
    (result : RecordRef) :
    ctx'.findRecord? result.id
      = if result ∈ results then (ctx.findRecord? result.id).map (book.wireRecord result)
        else ctx.findRecord? result.id := by
  rw [Context.findRecord?_eq, Context.findRecord?_eq, List.find?_eq_bind_findIdx?_getElem?,
    List.find?_eq_bind_findIdx?_getElem?, h.findIdx?_eq]
  cases hi : ctx.records.findIdx? (Record.hasId result.id) with
  | none => simp
  | some i =>
    rw [Option.bind_some, Option.bind_some]
    by_cases hresult : result ∈ results
    · rw [if_pos hresult, h.found result hresult i hi]
    · -- Nothing else that is wired is found at the same place.
      rw [if_neg hresult, h.others i]
      intro other hother hplace
      exact hresult (eq_of_findIdx?_hasId hi hplace ▸ hother)

/-- What the records become when the results of a book are wired. -/
theorem findRecord?_of_wireAll (h : book.wireAll book.reversibleResults ctx = (.ok (), ctx'))
    (result : RecordRef) :
    ctx'.findRecord? result.id
      = if result ∈ book.backResults then (ctx.findRecord? result.id).map (book.wireRecord result)
        else ctx.findRecord? result.id := by
  rw [(wireAll_eq_ok book.nodup_reversibleResults h).findRecord?_eq]
  simp only [mem_backResults]

section TwoBooks

variable {base between apart together : Context}

/-- If the results of two books can be wired one book after the other, then those of the single book
    can be wired, too. -/
theorem exists_wireAll_append (h₁ : b₁.wireAll b₁.reversibleResults base = (.ok (), between))
    (h₂ : b₂.wireAll b₂.reversibleResults between = (.ok (), apart)) :
    ∃ together,
      wireAll (b₁ ++ b₂) (reversibleResults (b₁ ++ b₂)) base = (.ok (), together) := by
  refine ⟨_, Prod.ext (wireAll_isOk_iff.2 fun result hresult => ?_) rfl⟩
  rw [← mem_backResults, mem_backResults_append] at hresult
  rcases hresult with hfirst | hsecond
  · exact wireAll_isOk_iff.1 (congrArg Prod.fst h₁) result (mem_backResults.1 hfirst)
  · have hfound := wireAll_isOk_iff.1 (congrArg Prod.fst h₂) result (mem_backResults.1 hsecond)
    rw [findRecord?_of_wireAll h₁] at hfound
    split at hfound
    · rwa [Option.isSome_map] at hfound
    · exact hfound

/-- A result that only one of the books writes to has the same record either way. -/
theorem findRecord?_eq_of_not_shared
    (h₁ : b₁.wireAll b₁.reversibleResults base = (.ok (), between))
    (h₂ : b₂.wireAll b₂.reversibleResults between = (.ok (), apart))
    (h : wireAll (b₁ ++ b₂) (reversibleResults (b₁ ++ b₂)) base = (.ok (), together))
    (hshared : ¬(result ∈ backResults b₁ ∧ result ∈ backResults b₂)) :
    apart.findRecord? result.id = together.findRecord? result.id := by
  have hway := waysBack_append b₁ b₂ result
  rw [findRecord?_of_wireAll h₂, findRecord?_of_wireAll h₁, findRecord?_of_wireAll h]
  by_cases hfirst : result ∈ backResults b₁
  · have hsecond : result ∉ backResults b₂ := fun hsecond => hshared ⟨hfirst, hsecond⟩
    rw [waysBack_eq_nil_iff.2 hsecond, List.append_nil] at hway
    rw [if_neg hsecond, if_pos hfirst, if_pos (mem_backResults_append.2 (.inl hfirst)),
      wireRecord_congr hway]
  · rw [waysBack_eq_nil_iff.2 hfirst, List.nil_append] at hway
    rw [if_neg hfirst, wireRecord_congr hway]
    simp only [mem_backResults_append, hfirst, false_or]

/-- A result that both books write to has different lists. -/
theorem lists?_ne_of_shared (h₁ : b₁.wireAll b₁.reversibleResults base = (.ok (), between))
    (h₂ : b₂.wireAll b₂.reversibleResults between = (.ok (), apart))
    (h : wireAll (b₁ ++ b₂) (reversibleResults (b₁ ++ b₂)) base = (.ok (), together))
    (hfirst : result ∈ backResults b₁) (hsecond : result ∈ backResults b₂) :
    lists? result apart ≠ lists? result together := by
  have hfound := wireAll_isOk_iff.1 (congrArg Prod.fst h₁) result (mem_backResults.1 hfirst)
  obtain ⟨r, hr⟩ := Option.isSome_iff_exists.1 hfound
  unfold lists?
  rw [findRecord?_of_wireAll h₂, findRecord?_of_wireAll h₁, findRecord?_of_wireAll h,
    if_pos hsecond, if_pos hfirst, if_pos (mem_backResults_append.2 (.inl hfirst)), hr]
  intro heq
  exact lists_wireRecord_ne hfirst hsecond r (Option.some.inj heq)

end TwoBooks

/-! ## Calls -/

/-- A call that succeeds declares the items and wires the results. -/
theorem finalize_eq_ok_iff {items : Collection} {outer : List Collection}
    {references : List RecordRef} {after : Context} :
    book.finalize ⟨items :: outer⟩ = (.ok references, after)
      ↔ references = book.map (fun r => ⟨r.material⟩)
        ∧ book.wireAll book.reversibleResults (Context.extend book.declared ⟨items :: outer⟩)
          = (.ok (), after) := by
  rw [finalize_eq, Prod.map, Prod.mk.injEq, map_eq_ok_iff, Prod.ext_iff]
  constructor
  · rintro ⟨⟨_, houtcome, rfl⟩, hafter⟩
    exact ⟨rfl, houtcome, hafter⟩
  · rintro ⟨rfl, houtcome, hafter⟩
    exact ⟨⟨(), houtcome, rfl⟩, hafter⟩

/-- Without an active collection, only a book without recipes can be finalized. -/
theorem eq_nil_of_finalize_eq_ok {references : List RecordRef} {after : Context}
    (h : book.finalize ⟨[]⟩ = (.ok references, after)) :
    book = [] ∧ references = [] ∧ after = ⟨[]⟩ := by
  cases book with
  | nil =>
    obtain ⟨hreferences, hafter⟩ := Prod.mk.inj h
    exact ⟨rfl, (Except.ok.inj hreferences).symm, hafter.symm⟩
  | cons r book => exact absurd (Prod.mk.inj h).1 (by simp)

/-- **Two calls as two loops.** If no material is a result that is combined back, the items of both
    books can be declared before the first result is wired. -/
theorem exists_wireAll_of_finalize {items : Collection} {outer : List Collection}
    {mid apart : Context} {references₁ references₂ : List RecordRef}
    (hmaterial : ∀ result ∈ backResults (b₁ ++ b₂), ∀ r ∈ b₁ ++ b₂, r.material ≠ result.id)
    (h₁ : b₁.finalize ⟨items :: outer⟩ = (.ok references₁, mid))
    (h₂ : b₂.finalize mid = (.ok references₂, apart)) :
    references₁ ++ references₂ = (b₁ ++ b₂).map (fun r => ⟨r.material⟩)
      ∧ ∃ between,
        b₁.wireAll b₁.reversibleResults (Context.extend (declared (b₁ ++ b₂)) ⟨items :: outer⟩)
            = (.ok (), between)
          ∧ b₂.wireAll b₂.reversibleResults between = (.ok (), apart) := by
  obtain ⟨rfl, hwire₁⟩ := finalize_eq_ok_iff.1 h₁
  change b₁.wireAll b₁.reversibleResults ⟨(items ++ b₁.declared) :: outer⟩ = _ at hwire₁
  obtain ⟨items', outer', rfl⟩ := (wireAll_eq_ok b₁.nodup_reversibleResults hwire₁).exists_eq_cons
  obtain ⟨rfl, hwire₂⟩ := finalize_eq_ok_iff.1 h₂
  refine ⟨(List.map_append ..).symm, _, ?_, hwire₂⟩
  have hhidden : ∀ result ∈ b₁.reversibleResults, some result.id ∈ Collection.ids b₂.declared →
      some result.id ∈ Collection.ids (items ++ b₁.declared) := by
    intro result hresult hdeclared
    rw [ids_declared, List.mem_map] at hdeclared
    obtain ⟨r, hr, hid⟩ := hdeclared
    have hback : result ∈ backResults (b₁ ++ b₂) :=
      mem_backResults_append.2 (.inl (mem_backResults.2 hresult))
    exact absurd (Option.some.inj hid) (hmaterial result hback r (List.mem_append_right _ hr))
  have hdeclared : declared (b₁ ++ b₂) = b₁.declared ++ b₂.declared := List.map_append ..
  rw [hdeclared, Context.extend_append]
  show b₁.wireAll _ (Context.extend b₂.declared ⟨(items ++ b₁.declared) :: outer⟩) = _
  rw [wireAll_extend hhidden, hwire₁]

/-- **Two books.** If no material is a result that is combined back and two books can be finalized
    one after the other, then the single book with the recipes of both can be finalized, too. A
    result has the same lists either way, unless both books have ways of combining it back. Then its
    lists are those that the second book writes onto the record as it was in the beginning. -/
theorem finalize_two_books {mid apart : Context} {references₁ references₂ : List RecordRef}
    (hmaterial : ∀ result ∈ backResults (b₁ ++ b₂), ∀ r ∈ b₁ ++ b₂, r.material ≠ result.id)
    (h₁ : b₁.finalize ctx = (.ok references₁, mid))
    (h₂ : b₂.finalize mid = (.ok references₂, apart)) :
    ∃ together, finalize (b₁ ++ b₂) ctx = (.ok (references₁ ++ references₂), together)
      ∧ (∀ result, lists? result apart = lists? result together
          ↔ ¬(result ∈ backResults b₁ ∧ result ∈ backResults b₂))
      ∧ ∀ result ∈ backResults b₁, result ∈ backResults b₂ → ∃ old new,
          ctx.findRecord? result.id = some old ∧ apart.findRecord? result.id = some new
            ∧ b₂.ListsWritten result old new := by
  obtain ⟨_ | ⟨items, outer⟩⟩ := ctx
  · -- Without an active collection there are no recipes.
    obtain ⟨rfl, rfl, rfl⟩ := eq_nil_of_finalize_eq_ok h₁
    obtain ⟨rfl, rfl, rfl⟩ := eq_nil_of_finalize_eq_ok h₂
    exact ⟨_, rfl, by simp [backResults], by simp [backResults]⟩
  obtain ⟨hreferences, between, hwire₁, hwire₂⟩ := exists_wireAll_of_finalize hmaterial h₁ h₂
  obtain ⟨together, hwire⟩ := exists_wireAll_append hwire₁ hwire₂
  refine ⟨_, finalize_eq_ok_iff.2 ⟨hreferences, hwire⟩, fun result => ?_, ?_⟩
  · constructor
    · rintro hsame ⟨hfirst, hsecond⟩
      exact lists?_ne_of_shared hwire₁ hwire₂ hwire hfirst hsecond hsame
    · intro hshared
      rw [lists?, lists?, findRecord?_eq_of_not_shared hwire₁ hwire₂ hwire hshared]
  · intro result hfirst hsecond
    have hback : result ∈ backResults (b₁ ++ b₂) := mem_backResults_append.2 (.inl hfirst)
    have hundeclared :
        Collection.findRecord? result.id (declared (b₁ ++ b₂)) = none := by
      rw [Collection.findRecord?_eq_none_iff, ids_declared, List.mem_map]
      rintro ⟨r, hr, hid⟩
      exact hmaterial result hback r hr (Option.some.inj hid)
    have hfound := wireAll_isOk_iff.1 (congrArg Prod.fst hwire₁) result (mem_backResults.1 hfirst)
    obtain ⟨old, hold⟩ := Option.isSome_iff_exists.1 hfound
    refine ⟨old, b₂.wireRecord result (b₁.wireRecord result old), ?_, ?_,
      (listsWritten_wireRecord result old).trans (listsWritten_wireRecord result _)⟩
    · rw [← hold, Context.findRecord?_extend outer hundeclared]
    · rw [findRecord?_of_wireAll hwire₂, findRecord?_of_wireAll hwire₁, if_pos hsecond,
        if_pos hfirst, hold]
      rfl

/-- A stew, as it is registered. -/
def stew : Record :=
  ((ItemType.item "stew").property "name" "Stew").build

/-- Two recipes of the morning. -/
def morningRecipes : RecipeBook :=
  [⟨⟨"bowl"⟩, "turnip", ⟨"soup"⟩, false, ["knife"]⟩, ⟨⟨"plate"⟩, "onion", ⟨"stew"⟩, true, ["fork"]⟩]

/-- One more way of making soup, of the evening. -/
def eveningRecipes : RecipeBook :=
  [⟨⟨"bowl"⟩, "carrot", ⟨"soup"⟩, false, ["sieve"]⟩]

/-- A context with a soup and a stew. -/
def pantry : Context :=
  ⟨[[.record soup, .record stew]]⟩

theorem finalize_two_books_pantry :
    (∀ result ∈ backResults (morningRecipes ++ eveningRecipes),
        ∀ r ∈ morningRecipes ++ eveningRecipes, r.material ≠ result.id)
      ∧ ∃ mid apart together new,
        morningRecipes.finalize pantry = (.ok [⟨"turnip"⟩, ⟨"onion"⟩], mid)
          ∧ eveningRecipes.finalize mid = (.ok [⟨"carrot"⟩], apart)
          ∧ finalize (morningRecipes ++ eveningRecipes) pantry
            = (.ok [⟨"turnip"⟩, ⟨"onion"⟩, ⟨"carrot"⟩], together)
          ∧ lists? ⟨"stew"⟩ apart = lists? ⟨"stew"⟩ together
          ∧ lists? ⟨"soup"⟩ apart ≠ lists? ⟨"soup"⟩ together
          ∧ apart.findRecord? "soup" = some new
          ∧ new.properties.get? "!combineWith" = some (.str "sieve") := by
  have hmaterial : ∀ result ∈ backResults (morningRecipes ++ eveningRecipes),
      ∀ r ∈ morningRecipes ++ eveningRecipes, r.material ≠ result.id := by
    decide +kernel
  have hfirst : morningRecipes.finalize pantry
      = (.ok [⟨"turnip"⟩, ⟨"onion"⟩], (morningRecipes.finalize pantry).2) := rfl
  have hsecond : eveningRecipes.finalize (morningRecipes.finalize pantry).2
      = (.ok [⟨"carrot"⟩], (eveningRecipes.finalize (morningRecipes.finalize pantry).2).2) := rfl
  obtain ⟨together, hboth, hlists, hlost⟩ := finalize_two_books hmaterial hfirst hsecond
  obtain ⟨old, new, hold, hnew, hwritten⟩ := hlost ⟨"soup"⟩ (by decide +kernel) (by decide +kernel)
  obtain rfl : old = soup := (Option.some.inj hold).symm
  refine ⟨hmaterial, _, _, together, new, hfirst, hsecond, hboth,
    (hlists ⟨"stew"⟩).2 (by decide +kernel), fun hsame => ?_, hnew, hwritten.combineWith.trans ?_⟩
  · exact (hlists ⟨"soup"⟩).1 hsame (by decide +kernel)
  · exact congrArg (fun text => some (Value.str text)) (by decide +kernel)

/-- **Ways back are lost between books.** No material is a result here, and all calls succeed. The
    soup that was to be combined with a knife in the morning forgets about it in the evening. -/
theorem finalize_two_books_loses :
    (∀ result ∈ backResults (morningRecipes ++ eveningRecipes),
        ∀ r ∈ morningRecipes ++ eveningRecipes, r.material ≠ result.id)
      ∧ ∃ mid apart together,
        morningRecipes.finalize pantry = (.ok [⟨"turnip"⟩, ⟨"onion"⟩], mid)
          ∧ eveningRecipes.finalize mid = (.ok [⟨"carrot"⟩], apart)
          ∧ finalize (morningRecipes ++ eveningRecipes) pantry
            = (.ok [⟨"turnip"⟩, ⟨"onion"⟩, ⟨"carrot"⟩], together)
          ∧ lists? ⟨"soup"⟩ apart
            = some [some (.str "sieve"), some (.str "carrot"), some (.str "false")]
          ∧ lists? ⟨"soup"⟩ together
            = some [some (.str "knife,sieve"), some (.str "turnip,carrot"),
              some (.str "false,false")]
          ∧ lists? ⟨"soup"⟩ apart ≠ lists? ⟨"soup"⟩ together := by
  refine ⟨by decide +kernel, _, _, _, rfl, rfl, rfl, rfl, rfl, ?_⟩
  show some [some (Value.str "sieve"), some (.str "carrot"), some (.str "false")]
    ≠ some [some (.str "knife,sieve"), some (.str "turnip,carrot"), some (.str "false,false")]
  simp

end RecipeBook
end GameContent
