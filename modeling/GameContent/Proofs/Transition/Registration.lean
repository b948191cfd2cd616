import GameContent.Proofs.Collection.Search
import GameContent.Proofs.Transition.Items

/-!
# `Proofs.Transition.Registration` — compiling a graph into a context

Compiling a graph into a context can be refused for want of a collection, or for a transition that
is not expanded. Both are found out before the first item is registered, and after that nothing can
go wrong, since every item has the id of its state (`registerAll_items`). So either all items are
registered or the context stays as it is (`compile_all_or_nothing`).

Which of the two it is can be read off the outcome: `exists_of_compile_eq_ok` and
`eq_of_compile_eq_error` say from it what was there before and what is there afterwards.
-/

namespace GameContent
namespace Graph

variable {g : Graph} {sentinel : String}

/-- The items of states are registered without fail, each under the id of its state. -/
theorem registerAll_items (g : Graph) (ids : List String) (items : Collection)
    (outer : List Collection) :
    Context.registerAll (ids.map g.itemOf) ⟨items :: outer⟩
      = (.ok (ids.map RecordRef.mk),
        ⟨(items ++ (ids.map g.itemOf).map Item.record) :: outer⟩) := by
  have hids : (ids.map g.itemOf).map Record.id? = ids.map some := by
    rw [List.map_map]
    rfl
  rw [Context.registerAll_named hids, Context.extend]

/-- Without a collection nothing is compiled. -/
theorem compile_of_no_collection (g : Graph) (sentinel : String) :
    g.compile sentinel ⟨[]⟩ = (.error (.record .noActiveCollection), ⟨[]⟩) :=
  rfl

/-- A graph that is refused is not registered. -/
theorem compile_of_error {err : GraphError} (h : g.compileRecords sentinel = .error err)
    (items : Collection) (outer : List Collection) :
    g.compile sentinel ⟨items :: outer⟩ = (.error err, ⟨items :: outer⟩) := by
  simp only [compile, Context.current?, List.head?_cons, h]

/-- A graph that is not refused is registered as a whole. -/
theorem compile_of_ok {rs : List Record} (h : g.compileRecords sentinel = .ok rs)
    (items : Collection) (outer : List Collection) :
    g.compile sentinel ⟨items :: outer⟩
      = (.ok ((g.ids.filter (· ≠ sentinel)).map RecordRef.mk),
        ⟨(items ++ rs.map Item.record) :: outer⟩) := by
  obtain ⟨-, rfl⟩ := compileRecords_eq_ok_iff.1 h
  simp only [compile, Context.current?, List.head?_cons, h]
  rw [registerAll_items]
  rfl

/-- A call that succeeds has found a collection and a graph that can be compiled. -/
theorem exists_of_compile_eq_ok {ctx after : Context} {references : List RecordRef}
    (h : g.compile sentinel ctx = (.ok references, after)) :
    ∃ items outer rs, ctx.stack = items :: outer ∧ g.compileRecords sentinel = .ok rs
      ∧ after.stack = (items ++ rs.map Item.record) :: outer
      ∧ references = (g.ids.filter (· ≠ sentinel)).map RecordRef.mk := by
  obtain ⟨_ | ⟨items, outer⟩⟩ := ctx
  · rw [compile_of_no_collection] at h
    cases h
  · cases hrs : g.compileRecords sentinel with
    | error err =>
      rw [compile_of_error hrs] at h
      cases h
    | ok rs =>
      rw [compile_of_ok hrs] at h
      cases h
      exact ⟨items, outer, rs, rfl, rfl, rfl, rfl⟩

/-- A call that fails has not come to registering anything. -/
theorem eq_of_compile_eq_error {ctx after : Context} {err : GraphError}
    (h : g.compile sentinel ctx = (.error err, after)) : after = ctx := by
  obtain ⟨_ | ⟨items, outer⟩⟩ := ctx
  · rw [compile_of_no_collection] at h
    exact (congrArg Prod.snd h).symm
  · cases hrs : g.compileRecords sentinel with
    | error err' =>
      rw [compile_of_error hrs] at h
      exact (congrArg Prod.snd h).symm
    | ok rs =>
      -- once the graph is compiled, nothing can fail any more
      rw [compile_of_ok hrs] at h
      cases h

/-- **All or nothing**: compiling a graph into a context registers all its items, in their order, or
    leaves the context as it is. Which of these it does depends on two things only: that there is a
    collection, and that the graph can be compiled. -/
theorem compile_all_or_nothing (g : Graph) (sentinel : String) (ctx : Context) :
    ((∃ references after, g.compile sentinel ctx = (.ok references, after))
        ↔ (∃ items, ctx.current? = some items) ∧ ∃ rs, g.compileRecords sentinel = .ok rs)
      ∧ (∀ err after, g.compile sentinel ctx = (.error err, after) → after = ctx)
      ∧ ∀ references after, g.compile sentinel ctx = (.ok references, after) →
        ∃ items outer rs, ctx.stack = items :: outer ∧ g.compileRecords sentinel = .ok rs
          ∧ after.stack = (items ++ rs.map Item.record) :: outer
          ∧ references = (g.ids.filter (· ≠ sentinel)).map RecordRef.mk := by
  refine ⟨⟨?_, ?_⟩, fun _ _ => eq_of_compile_eq_error, fun _ _ => exists_of_compile_eq_ok⟩
  · rintro ⟨references, after, h⟩
    obtain ⟨items, outer, rs, hstack, hrs, -⟩ := exists_of_compile_eq_ok h
    refine ⟨⟨items, ?_⟩, rs, hrs⟩
    rw [Context.current?, hstack, List.head?_cons]
  · rintro ⟨⟨items, hcurrent⟩, rs, hrs⟩
    obtain ⟨stack⟩ := ctx
    obtain ⟨outer, rfl⟩ : ∃ outer, stack = items :: outer := List.head?_eq_some_iff.1 hcurrent
    exact ⟨_, _, compile_of_ok hrs items outer⟩

/-- The bush once more. Its fruit now takes three days to grow into a bush. -/
def slowBushGraph : Graph :=
  bushGraph.addTransition "fruit" "bush" { Transition.on .newDay with days := some 3 }

/-- A bush is registered after a shovel, and the bucket outside stays where it is. The slow bush
    cannot be compiled, since its days are not expanded, and the shovel stays alone. -/
theorem compile_all_or_nothing_bushGraph :
    (∃ after rs, bushGraph.compile "X" ⟨[[.comment "shovel"], [.comment "bucket"]]⟩
        = (.ok [⟨"bush"⟩, ⟨"fruit"⟩], after)
        ∧ bushGraph.compileRecords "X" = .ok rs
        ∧ after.stack = [.comment "shovel" :: rs.map Item.record, [.comment "bucket"]])
      ∧ ∃ err, slowBushGraph.compile "X" ⟨[[.comment "shovel"]]⟩
        = (.error err, ⟨[[.comment "shovel"]]⟩) := by
  constructor
  · obtain ⟨hiff, -, hok⟩ :=
      compile_all_or_nothing bushGraph "X" ⟨[[.comment "shovel"], [.comment "bucket"]]⟩
    have hcompiles : (bushGraph.compileRecords "X").isOk = true := by decide +kernel
    obtain ⟨references, after, h⟩ := hiff.2 ⟨⟨_, rfl⟩, exists_eq_ok_of_isOk hcompiles⟩
    obtain ⟨items, outer, rs, hstack, hrs, hafter, hrefs⟩ := hok references after h
    cases hstack
    have hids : bushGraph.ids.filter (· ≠ "X") = ["bush", "fruit"] := by decide +kernel
    rw [hids] at hrefs
    subst hrefs
    exact ⟨after, rs, h, hrs, hafter⟩
  · obtain ⟨hiff, herr, -⟩ := compile_all_or_nothing slowBushGraph "X" ⟨[[.comment "shovel"]]⟩
    have hrefused : (slowBushGraph.compileRecords "X").isOk = false := by decide +kernel
    match h : slowBushGraph.compile "X" ⟨[[.comment "shovel"]]⟩ with
    | (.ok references, after) =>
      obtain ⟨-, rs, hrs⟩ := hiff.1 ⟨references, after, h⟩
      rw [hrs] at hrefused
      cases hrefused
    | (.error err, after) => exact ⟨err, by rw [herr err after h]⟩

end Graph
end GameContent
