import GameContent.Recipe
import GameContent.Proofs.Collection.Search
import GameContent.Proofs.FirstOccurrences
import GameContent.Proofs.Success
import Mathlib.Data.List.TakeWhile

/-!
# `Proofs.Collection.Recipes` — onto which records recipes are wired

`finalize` first declares an item for every material and then looks the results up. Looked at by
itself, the second phase does what one expects: it fails at the first result that has no record
(`fst_wireAll`), and it changes the first record of each result before that one and nothing else
(`wires_wireAll`).

The results are meant to be there before the call. The items declared in the first phase stand
after them in the innermost collection but before everything in the outer ones. So they get in the
way of a result that is a material too and is not in the innermost collection, and of no other
(`wireAll_extend`).

## Contents
- **Results.** `mem_reversibleResults` and its neighbours say which results are wired, in which
  order.
- **Wiring.** `Wires` compares a context before and after; `Wires.cons` is one step of the loop.
- **Finalizing.** `WiresRegistered` is what the call is for, `InSight` when it does that.
-/

namespace GameContent

namespace RecipeBook

variable {book : RecipeBook} {ctx ctx' : Context}

/-! ## The results -/

theorem reversibleResults_eq (book : RecipeBook) :
    book.reversibleResults
      = firstOccurrences id [] ((book.filter fun r => !r.reverse.isEmpty).map Recipe.result) := by
  rw [reversibleResults, foldl_eq_append_firstOccurrences, List.nil_append]

/-- The results that are wired are those of the recipes with partners, … -/
theorem mem_reversibleResults {result : RecordRef} :
    result ∈ book.reversibleResults ↔ ∃ r ∈ book, r.reverse ≠ [] ∧ r.result = result := by
  rw [reversibleResults_eq, ← List.map_id (firstOccurrences _ _ _), mem_map_firstOccurrences]
  simp [and_assoc]

/-- … each once. -/
theorem nodup_reversibleResults (book : RecipeBook) : book.reversibleResults.Nodup := by
  rw [reversibleResults_eq, ← List.map_id (firstOccurrences _ _ _)]
  exact nodup_map_firstOccurrences _

/-- The first result that passes a test is that of the first recipe whose result does. -/
theorem find?_reversibleResults (p : RecordRef → Bool) (book : RecipeBook) :
    book.reversibleResults.find? p
      = (book.find? fun r => !r.reverse.isEmpty && p r.result).map Recipe.result := by
  have hp : ∀ a b : RecordRef, id a = id b → p a = p b := fun _ _ he => congrArg p he
  rw [reversibleResults_eq, find?_firstOccurrences hp, List.find?_map, List.find?_filter]
  refine congrArg _ (congrArg (book.find? ·) (funext fun r => ?_))
  rw [Bool.eq_iff_iff]
  simp

/-! ## Wiring the results -/

/-- The record of a result with the three lists written onto it. -/
def wireRecord (book : RecipeBook) (result : RecordRef) (r : Record) : Record :=
  { r with properties := Recipe.wire (book.reversalsOf result) r.properties }

@[simp] theorem id?_wireRecord (result : RecordRef) (r : Record) :
    (book.wireRecord result r).id? = r.id? := rfl

/-- The three lists are written, and nothing else. -/
theorem get?_wireRecord (result : RecordRef) (r : Record) (key : String) :
    (book.wireRecord result r).properties.get? key
      = if key = "!consumeOnCombine" then some (.str (",".intercalate
          (Recipe.existing r.properties "consumeOnCombine"
            ++ (book.reversalsOf result).map fun row => boolText row.consume)))
        else if key = "!toMake" then some (.str (",".intercalate
          (Recipe.existing r.properties "toMake"
            ++ (book.reversalsOf result).map Recipe.Reversal.material)))
        else if key = "!combineWith" then some (.str (",".intercalate
          (Recipe.existing r.properties "combineWith"
            ++ (book.reversalsOf result).map Recipe.Reversal.partner)))
        else r.properties.get? key := by
  simp only [wireRecord, Recipe.wire, Properties.get?_set]

/-- How a context looks after some results are wired: the first record of each of them has its
    lists, the other records and everything around the records are as before. -/
structure Wires (book : RecipeBook) (results : List RecordRef) (before after : Context) : Prop where
  /-- Comments stay, and records stay where they are. -/
  outline : after.outline = before.outline
  /-- The record that is found for a result is wired. -/
  found : ∀ result ∈ results, ∀ i, before.records.findIdx? (Record.hasId result.id) = some i →
    after.records[i]? = before.records[i]?.map (book.wireRecord result)
  /-- No other record changes. -/
  others : ∀ i, (∀ result ∈ results,
    before.records.findIdx? (Record.hasId result.id) ≠ some i) →
    after.records[i]? = before.records[i]?

theorem wireAll_cons (result : RecordRef) (results : List RecordRef) (ctx : Context) :
    book.wireAll (result :: results) ctx
      = match ctx.updateRecord? result.id (book.wireRecord result) with
        | none => (.error (.unknownRecord result.id), ctx)
        | some ctx => book.wireAll results ctx := rfl

/-- Different results are found at different places. -/
theorem eq_of_findIdx?_hasId {a b : RecordRef} {i : Nat}
    (ha : ctx.records.findIdx? (Record.hasId a.id) = some i)
    (hb : ctx.records.findIdx? (Record.hasId b.id) = some i) : a = b := by
  obtain ⟨_, hida, -⟩ := List.findIdx?_eq_some_iff_getElem.1 ha
  obtain ⟨_, hidb, -⟩ := List.findIdx?_eq_some_iff_getElem.1 hb
  rw [Record.hasId_iff] at hida hidb
  cases a
  cases b
  exact congrArg _ (Option.some.inj (hida.symm.trans hidb))

/-- The outline tells that there is still an innermost collection. -/
theorem Wires.exists_eq_cons {results : List RecordRef} {items : Collection}
    {outer : List Collection} {after : Context} (h : book.Wires results ⟨items :: outer⟩ after) :
    ∃ items' outer', after = ⟨items' :: outer'⟩ := by
  obtain ⟨_ | ⟨items', outer'⟩⟩ := after
  · exact absurd h.outline (by simp [Context.outline])
  · exact ⟨items', outer', rfl⟩

/-- Nothing is wired when nothing happens. -/
theorem Wires.nil : book.Wires [] ctx ctx :=
  ⟨rfl, fun _ hmem => absurd hmem List.not_mem_nil, fun _ _ => rfl⟩

/-- **One result.** It is wired before the others, which are found where they were. -/
theorem Wires.cons {result : RecordRef} {results : List RecordRef} {after : Context}
    (hnew : result ∉ results)
    (hstep : ctx.updateRecord? result.id (book.wireRecord result) = some ctx')
    (hrest : book.Wires results ctx' after) : book.Wires (result :: results) ctx after := by
  obtain ⟨i, hi, hrecords⟩ := Context.exists_records_updateRecord? hstep
  have hsame : ∀ id, ctx'.records.findIdx? (Record.hasId id)
      = ctx.records.findIdx? (Record.hasId id) :=
    Context.findIdx?_eq_of_ids_eq (Context.ids_updateRecord? (id?_wireRecord result) hstep)
  have hget : ∀ j, ctx'.records[j]?
      = if i = j then ctx.records[j]?.map (book.wireRecord result) else ctx.records[j]? := by
    intro j
    rw [hrecords, List.getElem?_modify]
    by_cases hj : i = j <;> simp [hj]
  refine ⟨hrest.outline.trans (Context.outline_updateRecord? hstep), ?_, ?_⟩
  · intro other hother j hj
    rcases List.mem_cons.1 hother with rfl | hother
    · -- The place of this result is none of the places that change later.
      have hij : i = j := Option.some.inj (hi.symm.trans hj)
      rw [hrest.others, hget, if_pos hij]
      intro later hlater hplace
      rw [hsame] at hplace
      exact hnew (eq_of_findIdx?_hasId hj hplace ▸ hlater)
    · have hij : i ≠ j := by
        rintro rfl
        exact hnew (eq_of_findIdx?_hasId hi hj ▸ hother)
      rw [hrest.found other hother j ((hsame _).trans hj), hget, if_neg hij]
  · intro j hj
    have hij : i ≠ j := fun he => hj result List.mem_cons_self (he ▸ hi)
    rw [hrest.others, hget, if_neg hij]
    intro other hother
    rw [hsame]
    exact hj other (List.mem_cons_of_mem _ hother)

/-- Wiring fails at the first result that has no record, and only there. -/
theorem fst_wireAll (results : List RecordRef) (ctx : Context) :
    (book.wireAll results ctx).1
      = match results.find? fun result => (ctx.findRecord? result.id).isNone with
        | some result => .error (.unknownRecord result.id)
        | none => .ok () := by
  induction results generalizing ctx with
  | nil => rfl
  | cons result results ih =>
    rw [wireAll_cons, List.find?_cons]
    cases hstep : ctx.updateRecord? result.id (book.wireRecord result) with
    | none =>
      rw [Context.updateRecord?_eq_none_iff.1 hstep]
      rfl
    | some ctx' =>
      have hids := Context.ids_updateRecord? (id?_wireRecord result) hstep
      simp only [ih, Context.isNone_findRecord?_eq_of_ids_eq hids,
        Context.isNone_findRecord?_of_updateRecord? hstep]

/-- So it succeeds when all results have records. -/
theorem wireAll_isOk_iff {results : List RecordRef} :
    (book.wireAll results ctx).1 = .ok ()
      ↔ ∀ result ∈ results, (ctx.findRecord? result.id).isSome := by
  rw [fst_wireAll]
  cases hfind : results.find? fun result => (ctx.findRecord? result.id).isNone with
  | none => simpa [Option.isSome_iff_ne_none] using hfind
  | some missing =>
    have hmissing := List.find?_some hfind
    simp only [reduceCtorEq, false_iff]
    intro hall
    have hfound := hall missing (List.mem_of_find?_eq_some hfind)
    rw [Option.isNone_iff_eq_none.1 hmissing] at hfound
    exact absurd hfound (by simp)

/-- **All results.** Those before the first one that has no record are wired, and no others. -/
theorem wires_wireAll (book : RecipeBook) {results : List RecordRef} (hnodup : results.Nodup)
    (ctx : Context) :
    book.Wires (results.takeWhile fun result => !(ctx.findRecord? result.id).isNone) ctx
      (book.wireAll results ctx).2 := by
  induction results generalizing ctx with
  | nil => exact Wires.nil
  | cons result results ih =>
    obtain ⟨hnew, hnodup⟩ := List.nodup_cons.1 hnodup
    rw [wireAll_cons]
    cases hstep : ctx.updateRecord? result.id (book.wireRecord result) with
    | none =>
      rw [List.takeWhile_cons_of_neg (by simp [Context.updateRecord?_eq_none_iff.1 hstep])]
      exact Wires.nil
    | some ctx' =>
      have hids := Context.ids_updateRecord? (id?_wireRecord result) hstep
      have hfound := Context.isNone_findRecord?_of_updateRecord? hstep
      have hrest := ih hnodup ctx'
      simp only [Context.isNone_findRecord?_eq_of_ids_eq hids] at hrest
      rw [List.takeWhile_cons_of_pos (by rw [hfound, Bool.not_false])]
      exact Wires.cons (fun hmem => hnew (List.takeWhile_subset _ hmem)) hstep hrest

/-- When wiring succeeds, the record of every result is wired, and no other. -/
theorem wireAll_eq_ok {results : List RecordRef} (hnodup : results.Nodup)
    (h : book.wireAll results ctx = (.ok (), ctx')) : book.Wires results ctx ctx' := by
  have hwires := wires_wireAll book hnodup ctx
  rw [h] at hwires
  have hall : ∀ result ∈ results, (!(ctx.findRecord? result.id).isNone) = true := by
    intro result hresult
    rw [Option.not_isNone]
    exact wireAll_isOk_iff.1 (congrArg Prod.fst h) result hresult
  rwa [List.takeWhile_eq_self_iff.2 hall] at hwires

/-- Wiring does not see what stands at the end of the innermost collection, as long as that hides
    none of the results. -/
theorem wireAll_extend {added : List Item} {results : List RecordRef} {items : List Item}
    {outer : List Collection}
    (h : ∀ result ∈ results, some result.id ∈ Collection.ids added →
      some result.id ∈ Collection.ids items) :
    book.wireAll results (Context.extend added ⟨items :: outer⟩)
      = ((book.wireAll results ⟨items :: outer⟩).1,
          Context.extend added (book.wireAll results ⟨items :: outer⟩).2) := by
  induction results generalizing items outer with
  | nil => rfl
  | cons result results ih =>
    have hhidden : Collection.findRecord? result.id added ≠ none →
        Collection.findRecord? result.id items ≠ none := by
      rw [ne_eq, ne_eq, Collection.findRecord?_eq_none_iff, Collection.findRecord?_eq_none_iff,
        not_not, not_not]
      exact h result List.mem_cons_self
    rw [wireAll_cons, wireAll_cons, Context.updateRecord?_extend outer _ hhidden]
    cases hstep : Context.updateRecord? result.id (book.wireRecord result) ⟨items :: outer⟩ with
    | none => rfl
    | some ctx' =>
      have hids := Context.ids_updateRecord? (id?_wireRecord result) hstep
      obtain ⟨items' | ⟨items', outer'⟩⟩ := ctx'
      · exact absurd hids (by simp [Context.ids])
      · have hitems : Collection.ids items' = Collection.ids items := (List.cons.inj hids).1
        refine ih fun other hother hadded => ?_
        rw [hitems]
        exact h other (List.mem_cons_of_mem _ hother) hadded

/-! ## Finalizing -/

/-- The items that are declared for the materials. -/
def declared (book : RecipeBook) : Collection :=
  book.map fun r => .record r.derived

theorem ids_declared (book : RecipeBook) :
    Collection.ids book.declared = book.map fun r => some r.material := by
  have hrecords : book.declared = (book.map Recipe.derived).map Item.record := by
    rw [List.map_map]
    rfl
  rw [Collection.ids, hrecords, Collection.records_map_record, List.map_map]
  rfl

/-- Declaring the materials always succeeds when there is an active collection. -/
theorem registerAll_derived (book : RecipeBook) (items : Collection) (outer : List Collection) :
    Context.registerAll (book.map Recipe.derived) ⟨items :: outer⟩
      = (.ok (book.map fun r => ⟨r.material⟩), Context.extend book.declared ⟨items :: outer⟩) := by
  have hids : (book.map Recipe.derived).map Record.id? = (book.map Recipe.material).map some := by
    rw [List.map_map, List.map_map]
    rfl
  rw [Context.registerAll_named hids, List.map_map, List.map_map]
  rfl

/-- The two phases. -/
theorem finalize_eq (book : RecipeBook) (items : Collection) (outer : List Collection) :
    book.finalize ⟨items :: outer⟩
      = Prod.map (Except.map fun _ => book.map fun r => ⟨r.material⟩) id
          (book.wireAll book.reversibleResults
            (Context.extend book.declared ⟨items :: outer⟩)) := by
  rw [finalize, registerAll_derived]
  rfl

/-- No result that is to be wired is hidden by the item that is declared for a material: a result
    that is a material too is in the innermost collection. -/
def InSight (book : RecipeBook) (items : Collection) : Prop :=
  ∀ r ∈ book, r.reverse ≠ [] → r.result.id ∈ book.map Recipe.material →
    some r.result.id ∈ Collection.ids items

/-- Recipes are wired onto the records that are there before the call. -/
structure WiresRegistered (book : RecipeBook) (items : Collection) (outer : List Collection) :
    Prop where
  /-- The call succeeds if the result of every recipe with partners is found before it. Otherwise it
      reports the first one that is not. -/
  outcome : (book.finalize ⟨items :: outer⟩).1
    = match book.find? fun r =>
        !r.reverse.isEmpty && (Context.findRecord? r.result.id ⟨items :: outer⟩).isNone with
      | some r => .error (.unknownRecord r.result.id)
      | none => .ok (book.map fun r => ⟨r.material⟩)
  /-- If it succeeds, exactly the records that are found before it are wired. The items that it
      declares are not. -/
  wired : ∀ references ctx', book.finalize ⟨items :: outer⟩ = (.ok references, ctx') →
    ∃ items' outer', ctx'.stack = (items' ++ book.declared) :: outer'
      ∧ book.Wires book.reversibleResults ⟨items :: outer⟩ ⟨items' :: outer'⟩

/-- When the results are in sight, the results are wired as if nothing had been declared. -/
theorem InSight.wireAll_extend_declared {items : Collection} (h : book.InSight items)
    (outer : List Collection) :
    book.wireAll book.reversibleResults (Context.extend book.declared ⟨items :: outer⟩)
      = ((book.wireAll book.reversibleResults ⟨items :: outer⟩).1,
          Context.extend book.declared
            (book.wireAll book.reversibleResults ⟨items :: outer⟩).2) := by
  refine wireAll_extend fun result hresult hdeclared => ?_
  obtain ⟨r, hr, hpartners, rfl⟩ := mem_reversibleResults.1 hresult
  rw [ids_declared, List.mem_map] at hdeclared
  obtain ⟨other, hother, hid⟩ := hdeclared
  exact h r hr hpartners (List.mem_map.2 ⟨other, hother, Option.some.inj hid⟩)

/-- **Finalizing.** When the results are in sight, declaring the materials does not get in the way
    of wiring the results. -/
theorem wiresRegistered_of_inSight {items : Collection} (outer : List Collection)
    (h : book.InSight items) : book.WiresRegistered items outer := by
  have hfinalize := finalize_eq book items outer
  rw [h.wireAll_extend_declared outer] at hfinalize
  constructor
  · rw [hfinalize, fst_wireAll, find?_reversibleResults]
    cases book.find? _ <;> rfl
  · intro references ctx' hok
    rw [hfinalize] at hok
    obtain ⟨houtcome, rfl⟩ := Prod.mk.inj hok
    obtain ⟨⟨⟩, hwire, -⟩ := map_eq_ok_iff.1 houtcome
    have hwires := wireAll_eq_ok book.nodup_reversibleResults (Prod.ext hwire rfl)
    obtain ⟨items', outer', hafter⟩ := hwires.exists_eq_cons
    refine ⟨items', outer', ?_, hafter ▸ hwires⟩
    simp only [hafter, id, Context.extend]

end RecipeBook

/-- A soup, as it is registered. -/
def soup : Record :=
  ((ItemType.item "soup").property "name" "Soup").build

/-- A turnip and a bowl make a soup, which can be cut up again; soup on a plate makes a stew. -/
def soupRecipes : RecipeBook :=
  [⟨⟨"bowl"⟩, "turnip", ⟨"soup"⟩, false, ["knife"]⟩, ⟨⟨"plate"⟩, "soup", ⟨"stew"⟩, true, []⟩]

/-- A soup in the innermost collection is in sight. It is this one that is wired. -/
theorem wiresRegistered_soup :
    soupRecipes.InSight [.record soup]
      ∧ ∃ ctx' items' outer' wired,
        soupRecipes.finalize ⟨[[.record soup]]⟩ = (.ok [⟨"turnip"⟩, ⟨"soup"⟩], ctx')
          ∧ ctx'.stack = (items' ++ soupRecipes.declared) :: outer'
          ∧ (Context.records ⟨items' :: outer'⟩)[0]? = some wired
          ∧ wired.properties.get? "name" = some (.str "Soup")
          ∧ wired.properties.get? "!combineWith" = some (.str "knife") := by
  have h : soupRecipes.InSight [.record soup] := by
    unfold RecipeBook.InSight
    decide +kernel
  obtain ⟨houtcome, hwired⟩ := RecipeBook.wiresRegistered_of_inSight [] h
  have hok : (soupRecipes.finalize ⟨[[.record soup]]⟩).1 = .ok [⟨"turnip"⟩, ⟨"soup"⟩] :=
    houtcome.trans rfl
  obtain ⟨items', outer', hstack, hwires⟩ := hwired _ _ (Prod.ext hok rfl)
  have hfound := hwires.found ⟨"soup"⟩ (by decide +kernel) 0 (by decide +kernel)
  refine ⟨h, _, items', outer', soupRecipes.wireRecord ⟨"soup"⟩ soup, Prod.ext hok rfl, hstack,
    hfound, ?_, ?_⟩
  · rw [RecipeBook.get?_wireRecord]
    rfl
  · rw [RecipeBook.get?_wireRecord]
    rfl

/-- A soup in an outer collection is not: the soup that is declared as a material is wired in its
    place. -/
theorem not_wiresRegistered_outer_soup : ¬ soupRecipes.WiresRegistered [] [[.record soup]] := by
  intro h
  have hok : (soupRecipes.finalize ⟨[[], [.record soup]]⟩).1.isOk = true := by decide +kernel
  obtain ⟨references, hreferences⟩ := exists_eq_ok_of_isOk hok
  obtain ⟨items', outer', hstack, -⟩ := h.wired references _ (Prod.ext hreferences rfl)
  have hkeys : ((soupRecipes.finalize ⟨[[], [.record soup]]⟩).2.stack.head?.bind
      List.getLast?).map (fun item => item.records.map fun r => r.properties.keys)
      = some [["cloneFrom", "combineWith", "toMake", "consumeOnCombine", "!combineWith", "!toMake",
        "!consumeOnCombine"]] := by
    decide +kernel
  -- The last item would be as it was declared, without the lists.
  have hlast : (items' ++ soupRecipes.declared).getLast?
      = some (.record (Recipe.derived ⟨⟨"plate"⟩, "soup", ⟨"stew"⟩, true, []⟩)) := by
    rw [List.getLast?_append]
    rfl
  rw [hstack, List.head?_cons, Option.bind_some, hlast] at hkeys
  exact absurd hkeys (by decide +kernel)

end GameContent
