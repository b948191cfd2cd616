import GameContent.Proofs.Collection.Recipes

/-!
# `Proofs.Collection.Finalizing` — what finalizing recipes leaves behind

Here the outcome of `finalize` is said without its two loops. An item is declared for every material
(`Recipe.IsDerived`), and onto the record of every result that can be combined back the ways of
doing so are written as three lists (`ListsWritten`). Nothing else changes (`WritesLists`).

If the results are there before the call and none of them is a material, that is all there is to it
(`finalize_writes_lists`). A call that fails takes nothing back: when a result is missing, the items
are all declared, and the lists are written onto the results of the recipes before
(`finalize_failure_leaves`).

## Contents
- **Specification.** `backResults` and `waysBack` read off the recipes what is to be written onto
  which records.
- **Records, contexts.** `listsWritten_wireRecord` and `Wires.writesLists` meet the specification
  one record and one context at a time.
- **Calls.** One result for a call that succeeds, one for a call that fails.
-/

namespace GameContent

/-- Whether a record is the item that is declared for the material of a recipe. -/
structure Recipe.IsDerived (r : Recipe) (item : Record) : Prop where
  /-- It is an item. -/
  typeName : item.typeName = "ItemType"
  /-- It goes by the id of the material. -/
  identity : item.identity = .named r.material
  /-- It is a clone of the material that knows the combination. -/
  entries : item.properties.entries
    = [("cloneFrom", .str r.material), ("combineWith", .ref r.base), ("toMake", .ref r.result),
      ("consumeOnCombine", .bool r.consume)]
  /-- It owns nothing. -/
  subrecords : item.subrecords = []

namespace RecipeBook

/-- The results of the recipes with partners, one for each of these recipes. -/
def backResults (book : RecipeBook) : List RecordRef :=
  (book.filter fun r => !r.reverse.isEmpty).map Recipe.result

/-- The ways of combining a result back: each partner of each recipe with this result, in the order
    in which they are declared. -/
def waysBack (book : RecipeBook) (result : RecordRef) : List (Recipe × String) :=
  (book.filter fun r => r.result = result).flatMap fun r =>
    r.reverse.map fun partner => (r, partner)

/-- The keys of the three lists. -/
def listKeys : List String := ["!combineWith", "!toMake", "!consumeOnCombine"]

/-- Whether a record is another one with the ways of combining it back written onto it. Each list
    begins with what the record has under the key without the mark, and the entries of one way back
    follow at the same place of the three. -/
structure ListsWritten (book : RecipeBook) (result : RecordRef) (old new : Record) : Prop where
  /-- The type is the same. -/
  typeName : new.typeName = old.typeName
  /-- The id is the same. -/
  identity : new.identity = old.identity
  /-- What the record owns is the same. -/
  subrecords : new.subrecords = old.subrecords
  /-- The partners. -/
  combineWith : new.properties.get? "!combineWith" = some (.str (",".intercalate
    (Recipe.existing old.properties "combineWith" ++ (book.waysBack result).map fun way => way.2)))
  /-- The materials that come back. -/
  toMake : new.properties.get? "!toMake" = some (.str (",".intercalate
    (Recipe.existing old.properties "toMake"
      ++ (book.waysBack result).map fun way => way.1.material)))
  /-- Whether the result is used up. -/
  consume : new.properties.get? "!consumeOnCombine" = some (.str (",".intercalate
    (Recipe.existing old.properties "consumeOnCombine"
      ++ (book.waysBack result).map fun way => boolText way.1.consume)))
  /-- The other properties are the same. -/
  others : ∀ key, key ∉ listKeys → new.properties.get? key = old.properties.get? key
  /-- They keep their places. The lists that are new come after them. -/
  keys : new.properties.keys
    = old.properties.keys ++ listKeys.filter fun key => key ∉ old.properties.keys

/-- How a context looks after the ways of combining some results back are written. -/
structure WritesLists (book : RecipeBook) (results : List RecordRef) (before after : Context) :
    Prop where
  /-- Comments stay, and records stay where they are. -/
  outline : after.outline = before.outline
  /-- Every result has a record, and the first one has the lists. -/
  written : ∀ result ∈ results, ∃ i old new,
    before.records.findIdx? (Record.hasId result.id) = some i ∧ before.records[i]? = some old
      ∧ after.records[i]? = some new ∧ book.ListsWritten result old new
  /-- No other record changes. -/
  others : ∀ i, (∀ result ∈ results,
    before.records.findIdx? (Record.hasId result.id) ≠ some i) →
    after.records[i]? = before.records[i]?

variable {book : RecipeBook} {before after : Context}

/-! ## Records -/

theorem isDerived_derived (r : Recipe) : r.IsDerived r.derived where
  typeName := rfl
  identity := rfl
  entries := by
    show (((∅ : Properties).extend (.ofList _)).normalizeList ItemType.flagsKey).entries = _
    rw [Properties.empty_extend]
    rfl
  subrecords := rfl

theorem reversalsOf_eq (book : RecipeBook) (result : RecordRef) :
    book.reversalsOf result
      = (book.waysBack result).map fun way => ⟨way.2, way.1.material, way.1.consume⟩ := by
  rw [reversalsOf, waysBack, List.map_flatMap]
  refine List.flatMap_congr fun r _ => ?_
  rw [Recipe.reversals, List.map_map]
  rfl

theorem keys_wire (rows : List Recipe.Reversal) (p : Properties) :
    (Recipe.wire rows p).keys = p.keys ++ listKeys.filter fun key => key ∉ p.keys := by
  simp only [Recipe.wire, Properties.keys_set, listKeys]
  by_cases hcombine : "!combineWith" ∈ p.keys <;> by_cases hmake : "!toMake" ∈ p.keys <;>
    by_cases hconsume : "!consumeOnCombine" ∈ p.keys <;> simp [hcombine, hmake, hconsume]

theorem listsWritten_wireRecord (result : RecordRef) (r : Record) :
    book.ListsWritten result r (book.wireRecord result r) where
  typeName := rfl
  identity := rfl
  subrecords := rfl
  combineWith := by
    rw [get?_wireRecord, if_neg (by decide), if_neg (by decide), if_pos rfl, reversalsOf_eq,
      List.map_map]
    rfl
  toMake := by
    rw [get?_wireRecord, if_neg (by decide), if_pos rfl, reversalsOf_eq, List.map_map]
    rfl
  consume := by
    rw [get?_wireRecord, if_pos rfl, reversalsOf_eq, List.map_map]
    rfl
  others key hkey := by
    simp only [listKeys, List.mem_cons, List.not_mem_nil, or_false, not_or] at hkey
    rw [get?_wireRecord, if_neg hkey.2.2, if_neg hkey.2.1, if_neg hkey.1]
  keys := keys_wire _ _

/-! ## Contexts -/

/-- Wiring results that are all found writes their lists. -/
theorem Wires.writesLists {results results' : List RecordRef} (h : book.Wires results before after)
    (hsame : ∀ result, result ∈ results' ↔ result ∈ results)
    (hfound : ∀ result ∈ results', (before.findRecord? result.id).isSome) :
    book.WritesLists results' before after := by
  refine ⟨h.outline, fun result hresult => ?_, fun i hi => h.others i fun result hresult => ?_⟩
  · have hsome := hfound result hresult
    rw [Context.findRecord?_eq, List.find?_isSome] at hsome
    cases hindex : before.records.findIdx? (Record.hasId result.id) with
    | none =>
      obtain ⟨r, hr, hid⟩ := hsome
      rw [List.findIdx?_eq_none_iff.1 hindex r hr] at hid
      exact absurd hid Bool.false_ne_true
    | some i =>
      obtain ⟨hlt, -, -⟩ := List.findIdx?_eq_some_iff_getElem.1 hindex
      have hold : before.records[i]? = some before.records[i] := List.getElem?_eq_getElem hlt
      refine ⟨i, before.records[i], book.wireRecord result before.records[i], rfl, hold, ?_,
        listsWritten_wireRecord result _⟩
      rw [h.found result ((hsame result).1 hresult) i hindex, hold]
      rfl
  · exact hi result ((hsame result).2 hresult)

/-! ## Results -/

theorem mem_firstOccurrences_backResults {result : RecordRef} :
    result ∈ book.backResults ↔ result ∈ firstOccurrences id [] book.backResults := by
  rw [← List.map_id (firstOccurrences _ _ _), mem_map_firstOccurrences, List.map_id]
  simp

/-- The results that are wired are those of the recipes with partners. -/
theorem mem_backResults {result : RecordRef} :
    result ∈ book.backResults ↔ result ∈ book.reversibleResults := by
  rw [reversibleResults_eq]
  exact mem_firstOccurrences_backResults

/-- Up to the first result that fails a test, the results are those of the recipes before. -/
theorem takeWhile_reversibleResults {p : RecordRef → Bool} {earlier later : RecipeBook} {r : Recipe}
    (hpass : ∀ result ∈ backResults earlier, p result = true) (hpartners : r.reverse ≠ [])
    (hfails : ¬p r.result = true) :
    (reversibleResults (earlier ++ r :: later)).takeWhile p
      = firstOccurrences id [] (backResults earlier) := by
  have hsplit : backResults (earlier ++ r :: later)
      = backResults earlier ++ r.result :: backResults later := by
    rw [backResults, List.filter_append, List.filter_cons_of_pos (by simpa using hpartners),
      List.map_append]
    rfl
  rw [reversibleResults_eq, ← backResults, takeWhile_firstOccurrences (by simp), hsplit,
    List.takeWhile_append_of_pos hpass, List.takeWhile_cons_of_neg hfails, List.append_nil]

/-- Wiring the results fails at the first recipe with partners whose result is missing, and by then
    the lists of the results of the recipes before are written. -/
theorem exists_split_of_wireAll_error {ctx : Context} {e : RecordError}
    (h : (book.wireAll book.reversibleResults ctx).1 = .error e) :
    ∃ earlier r later, book = earlier ++ r :: later ∧ r.reverse ≠ []
      ∧ e = .unknownRecord r.result.id ∧ ctx.findRecord? r.result.id = none
      ∧ book.WritesLists (backResults earlier) ctx
        (book.wireAll book.reversibleResults ctx).2 := by
  rw [fst_wireAll, find?_reversibleResults] at h
  split at h
  · rename_i missing hmissing
    obtain ⟨r, hr, rfl⟩ := Option.map_eq_some_iff.1 hmissing
    obtain ⟨hfails, earlier, later, hbook, hpass⟩ := List.find?_eq_some_iff_append.1 hr
    obtain ⟨hpartners, hnone⟩ := Bool.and_eq_true_iff.1 hfails
    have hreverse : r.reverse ≠ [] := by simpa using hpartners
    have hfound : ∀ result ∈ backResults earlier, (!(ctx.findRecord? result.id).isNone) = true := by
      intro result hresult
      obtain ⟨s, hs, rfl⟩ := List.mem_map.1 hresult
      obtain ⟨hs, hkept⟩ := List.mem_filter.1 hs
      simpa [hkept] using hpass s hs
    have hwires := wires_wireAll book book.nodup_reversibleResults ctx
    have htake : book.reversibleResults.takeWhile
        (fun result => !(ctx.findRecord? result.id).isNone)
          = firstOccurrences id [] (backResults earlier) := by
      rw [hbook]
      exact takeWhile_reversibleResults hfound hreverse (by simp [hnone])
    rw [htake] at hwires
    refine ⟨earlier, r, later, hbook, hreverse, (Except.error.inj h).symm,
      Option.isNone_iff_eq_none.1 hnone,
      hwires.writesLists (fun _ => mem_firstOccurrences_backResults) fun result hresult => ?_⟩
    rw [← Option.not_isNone]
    exact hfound result hresult
  · exact absurd h (by simp)

/-! ## Calls -/

theorem forall₂_isDerived (book : RecipeBook) :
    List.Forall₂ Recipe.IsDerived book (book.map Recipe.derived) := by
  rw [List.forall₂_map_right_iff, List.forall₂_same]
  exact fun r _ => isDerived_derived r

theorem extend_declared (book : RecipeBook) (items : Collection) (outer : List Collection) :
    Context.extend book.declared ⟨items :: outer⟩
      = ⟨(items ++ (book.map Recipe.derived).map Item.record) :: outer⟩ := by
  rw [Context.extend, declared, List.map_map]
  rfl

/-- **A call that succeeds.** If the result of every recipe with partners is there and is no
    material, the item of every recipe is declared, the lists of these results are written, and
    nothing else changes. -/
theorem finalize_writes_lists {items : Collection} {outer : List Collection}
    (hfound : ∀ result ∈ book.backResults,
      (Context.findRecord? result.id ⟨items :: outer⟩).isSome)
    (hmaterial : ∀ result ∈ book.backResults, ∀ r ∈ book, r.material ≠ result.id) :
    ∃ items' outer' declared,
      book.finalize ⟨items :: outer⟩
          = (.ok (book.map fun r => ⟨r.material⟩),
            ⟨(items' ++ declared.map Item.record) :: outer'⟩)
        ∧ List.Forall₂ Recipe.IsDerived book declared
        ∧ book.WritesLists book.backResults ⟨items :: outer⟩ ⟨items' :: outer'⟩ := by
  have hsight : book.InSight items := by
    intro r hr hpartners hmem
    obtain ⟨other, hother, hid⟩ := List.mem_map.1 hmem
    have hback := mem_backResults.2 (mem_reversibleResults.2 ⟨r, hr, hpartners, rfl⟩)
    exact absurd hid (hmaterial r.result hback other hother)
  have houtcome : (book.wireAll book.reversibleResults ⟨items :: outer⟩).1 = .ok () := by
    have hnone : book.reversibleResults.find?
        (fun result => (Context.findRecord? result.id ⟨items :: outer⟩).isNone) = none := by
      refine List.find?_eq_none.2 fun result hresult => ?_
      rw [Bool.not_eq_true, Option.isNone_eq_false_iff]
      exact hfound result (mem_backResults.2 hresult)
    rw [fst_wireAll, hnone]
  have hwires := wireAll_eq_ok book.nodup_reversibleResults (Prod.ext houtcome rfl)
  obtain ⟨items', outer', hafter⟩ := hwires.exists_eq_cons
  refine ⟨items', outer', book.map Recipe.derived, ?_, forall₂_isDerived book,
    hafter ▸ hwires.writesLists (fun _ => mem_backResults) hfound⟩
  have hwire : book.wireAll book.reversibleResults ⟨items :: outer⟩
      = (.ok (), ⟨items' :: outer'⟩) := Prod.ext houtcome hafter
  rw [finalize_eq, hsight.wireAll_extend_declared outer, hwire, extend_declared]
  rfl

/-- A soup that is combined with something already. -/
def seasonedSoup : Record :=
  (((ItemType.item "soup").property "combineWith" "spoon").property "toMake" "stew").build

/-- Two recipes for a soup that can be combined back, and one for a stew that cannot. -/
def kitchenRecipes : RecipeBook :=
  [⟨⟨"bowl"⟩, "turnip", ⟨"soup"⟩, false, ["knife"]⟩, ⟨⟨"plate"⟩, "onion", ⟨"stew"⟩, false, []⟩,
    ⟨⟨"bowl"⟩, "carrot", ⟨"soup"⟩, true, ["sieve", "ladle"]⟩]

/-- A context with that soup in a nested collection, and another soup further out. -/
def kitchen : Context :=
  ⟨[[.comment "kitchen", .collection [.record seasonedSoup]], [.record soup]]⟩

theorem finalize_writes_lists_kitchen :
    (∀ result ∈ kitchenRecipes.backResults, (kitchen.findRecord? result.id).isSome)
      ∧ (∀ result ∈ kitchenRecipes.backResults, ∀ r ∈ kitchenRecipes, r.material ≠ result.id)
      ∧ ∃ (items' : Collection) (outer' : List Collection) (declared : List Record) (new : Record),
        kitchenRecipes.finalize kitchen
            = (.ok [⟨"turnip"⟩, ⟨"onion"⟩, ⟨"carrot"⟩],
              ⟨(items' ++ declared.map Item.record) :: outer'⟩)
          ∧ (Context.records ⟨items' :: outer'⟩)[0]? = some new
          ∧ new.properties.get? "!combineWith" = some (.str "spoon,knife,sieve,ladle")
          ∧ new.properties.get? "!toMake" = some (.str "stew,turnip,carrot,carrot")
          ∧ new.properties.get? "!consumeOnCombine" = some (.str "false,true,true") := by
  have hfound : ∀ result ∈ kitchenRecipes.backResults,
      (kitchen.findRecord? result.id).isSome := by
    decide +kernel
  have hmaterial : ∀ result ∈ kitchenRecipes.backResults, ∀ r ∈ kitchenRecipes,
      r.material ≠ result.id := by
    decide +kernel
  obtain ⟨items', outer', declared, hfinalize, -, hwrites⟩ :=
    finalize_writes_lists hfound hmaterial
  obtain ⟨i, old, new, hindex, hold, hnew, hlists⟩ :=
    hwrites.written ⟨"soup"⟩ (by decide +kernel)
  obtain rfl : i = 0 := Option.some.inj (hindex.symm.trans (by decide +kernel))
  obtain rfl : old = seasonedSoup := (Option.some.inj hold).symm
  refine ⟨hfound, hmaterial, items', outer', declared, new, hfinalize, hnew,
    hlists.combineWith.trans ?_, hlists.toMake.trans ?_, hlists.consume.trans ?_⟩
  · exact congrArg (fun text => some (Value.str text)) (by decide +kernel)
  · exact congrArg (fun text => some (Value.str text)) (by decide +kernel)
  · exact congrArg (fun text => some (Value.str text)) (by decide +kernel)

/-- **A call that fails.** Without an active collection nothing happens. Otherwise there is a first
    recipe whose result is to be combined back and is missing. All items have been declared by then,
    and the lists of the results of the recipes before that one are written. -/
theorem finalize_failure_leaves {ctx after : Context} {e : RecordError}
    (h : book.finalize ctx = (.error e, after)) :
    (e = .noActiveCollection ∧ ctx.stack = [] ∧ after = ctx)
      ∨ ∃ items outer declared earlier r later, ctx.stack = items :: outer
        ∧ List.Forall₂ Recipe.IsDerived book declared
        ∧ book = earlier ++ r :: later ∧ r.reverse ≠ [] ∧ e = .unknownRecord r.result.id
        ∧ Context.findRecord? r.result.id ⟨(items ++ declared.map Item.record) :: outer⟩ = none
        ∧ book.WritesLists (backResults earlier)
          ⟨(items ++ declared.map Item.record) :: outer⟩ after := by
  obtain ⟨_ | ⟨items, outer⟩⟩ := ctx
  · left
    cases book with
    | nil => exact absurd (Prod.mk.inj h).1 (by simp [Except.map])
    | cons r book =>
      obtain ⟨he, hafter⟩ := Prod.mk.inj h
      exact ⟨(Except.error.inj he).symm, rfl, hafter.symm⟩
  · right
    rw [finalize_eq, extend_declared] at h
    obtain ⟨houtcome, rfl⟩ := Prod.mk.inj h
    obtain ⟨earlier, r, later, hbook, hpartners, he, hnone, hwrites⟩ :=
      exists_split_of_wireAll_error (map_eq_error_iff.1 houtcome)
    exact ⟨items, outer, book.map Recipe.derived, earlier, r, later, rfl, forall₂_isDerived book,
      hbook, hpartners, he, hnone, hwrites⟩

/-- Recipes for a soup and a stew that can both be combined back. -/
def supperRecipes : RecipeBook :=
  [⟨⟨"bowl"⟩, "turnip", ⟨"soup"⟩, false, ["knife"]⟩,
    ⟨⟨"plate"⟩, "onion", ⟨"stew"⟩, false, ["ladle"]⟩]

/-- The stew is missing. The lists of the soup are written all the same. -/
theorem finalize_failure_leaves_supper :
    ∃ after new, supperRecipes.finalize ⟨[[.record soup]]⟩ = (.error (.unknownRecord "stew"), after)
      ∧ after.records[0]? = some new
      ∧ new.properties.get? "!combineWith" = some (.str "knife") := by
  have herror : (supperRecipes.finalize ⟨[[.record soup]]⟩).1 = .error (.unknownRecord "stew") :=
    rfl
  rcases finalize_failure_leaves (Prod.ext herror rfl) with
    ⟨hnone, -⟩ | ⟨items, outer, declared, earlier, r, later, hstack, -, hbook, -, he, -, hwrites⟩
  · exact absurd hnone (by simp)
  · obtain ⟨rfl, rfl⟩ := List.cons.inj hstack
    cases earlier with
    | nil =>
      obtain ⟨rfl, -⟩ := List.cons.inj hbook
      exact absurd he (by decide)
    | cons first earlier =>
      obtain ⟨rfl, -⟩ := List.cons.inj hbook
      obtain ⟨i, old, new, hindex, hold, hnew, hlists⟩ :=
        hwrites.written ⟨"soup"⟩ List.mem_cons_self
      obtain rfl : i = 0 := Option.some.inj (hindex.symm.trans rfl)
      obtain rfl : old = soup := (Option.some.inj hold).symm
      refine ⟨_, new, Prod.ext herror rfl, hnew, hlists.combineWith.trans ?_⟩
      exact congrArg (fun text => some (Value.str text)) (by decide +kernel)

/-- **A failed call does not leave the context intact.** The items of both recipes are declared, and
    the soup is not as it was. -/
theorem finalize_failure_not_intact :
    (supperRecipes.finalize ⟨[[.record soup]]⟩).1 = .error (.unknownRecord "stew")
      ∧ (supperRecipes.finalize ⟨[[.record soup]]⟩).2.ids
        = [[some "soup", some "turnip", some "onion"]]
      ∧ (supperRecipes.finalize ⟨[[.record soup]]⟩).2.records[0]? ≠ some soup := by
  refine ⟨rfl, by decide +kernel, fun h => ?_⟩
  have hkeys : ((supperRecipes.finalize ⟨[[.record soup]]⟩).2.records[0]?).map
      (fun r => r.properties.keys) = some ("name" :: listKeys) := by
    decide +kernel
  rw [h] at hkeys
  exact absurd hkeys (by decide +kernel)

end RecipeBook
end GameContent
