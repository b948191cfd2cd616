import GameContent.Proofs.Context.Scopes

/-!
# `Proofs.Context.HandedOver` — the collection that a block hands over

When a block is done, the lowest of the collections above the old depth is handed over. Only the
depth is remembered and not which collection was put there. So a block that takes its own collection
off and pushes another one in its place hands that one over (`not_handsOwnOver_swapping`).

What stands in that place is settled by the last change that takes the place away: what comes after
it either puts nothing there, or first pushes a collection, which then stays to the end.

## Contents
- `HandsOver` says what is handed over from what happens while the block runs, and `HandsOwnOver` is
  what would hold if the place could not be taken by another collection.
- **The last removal.** `Course.all_or_exists_removal` cuts a course there, and
  `Event.IsChange.eq_push` says how the place is taken again.
- **Blocks.** `collect_hands_over` puts the cases together.
-/

namespace GameContent
namespace Context

/-- What a block hands over, given the number of collections around it and what happens while it
    runs. -/
inductive HandsOver (depth : Nat) (events : List Event) : Collection → Prop where
  /-- The block never takes its own collection off. It hands over what was appended to it. -/
  | own (hkept : ∀ event ∈ events, depth < event.after.depth) :
      HandsOver depth events (appendedAt (depth + 1) events)
  /-- The last change takes the block's own collection off, or what stood in its place, or a
      collection around them. Nothing is handed over. -/
  | nothing {earlier : List Event} {removal : Event} (hevents : events = earlier ++ [removal])
      (hremoval : removal.after.depth ≤ depth) : HandsOver depth events []
  /-- After the last such change the block pushes a collection in the place of its own. It hands
      this one over, with what was appended to it. -/
  | other {earlier later : List Event} {removal replacement : Event} {pushed : Collection}
      (hevents : events = earlier ++ removal :: replacement :: later)
      (hremoval : removal.after.depth ≤ depth)
      (hdepth : replacement.before.depth = depth)
      (hpushed : replacement.after = replacement.before.push pushed)
      (hkept : ∀ event ∈ later, depth < event.after.depth) :
      HandsOver depth events (pushed ++ appendedAt (depth + 1) later)

/-- Whether what a block hands over is its own collection, or nothing if it took that one off. -/
structure HandsOwnOver (depth : Nat) (events : List Event) (handed : Collection) : Prop where
  /-- If the block never takes its own collection off, what was appended to it is handed over. -/
  kept : (∀ event ∈ events, depth < event.after.depth) → handed = appendedAt (depth + 1) events
  /-- If it does at any time, nothing is handed over. -/
  gone : (∃ event ∈ events, event.after.depth ≤ depth) → handed = []

variable {ctx after : Context} {own : Collection} {outer : List Collection} {events : List Event}
  {d : Nat}

/-! ## The last removal -/

/-- Either the depth stays above a bound, or there is a last change after which it does not. -/
theorem Course.all_or_exists_removal (h : Course ctx events after) (d : Nat) :
    (∀ event ∈ events, d < event.after.depth)
      ∨ ∃ earlier removal since, events = earlier ++ removal :: since ∧ removal.after.depth ≤ d
        ∧ (∀ event ∈ since, d < event.after.depth) ∧ Course removal.after since after := by
  induction h with
  | nil => exact .inl fun _ hmem => absurd hmem List.not_mem_nil
  | @cons _ _ event _ _ _ hrest ih =>
    rcases ih with hall | ⟨earlier, removal, since, rfl, hremoval, hsince, hcourse⟩
    · by_cases hevent : event.after.depth ≤ d
      · exact .inr ⟨[], event, _, rfl, hevent, hall, hrest⟩
      · exact .inl (List.forall_mem_cons.2 ⟨Nat.lt_of_not_le hevent, hall⟩)
    · exact .inr ⟨event :: earlier, removal, since, rfl, hremoval, hsince, hcourse⟩

/-- A change that raises the depth above a bound pushes a collection right above that bound. -/
theorem Event.IsChange.eq_push {event : Event} (hchange : event.IsChange)
    (hbefore : event.before.depth ≤ d) (hafter : d < event.after.depth) :
    event.before.depth = d ∧ ∃ pushed, event.after = event.before.push pushed := by
  cases hchange with
  | push before items =>
    have hraised : d < before.depth + 1 := hafter
    exact ⟨Nat.le_antisymm hbefore (Nat.le_of_lt_succ hraised), items, rfl⟩
  | drop hdrop =>
    exact absurd hafter (Nat.not_lt_of_le (hdrop.length_le.trans hbefore))
  | append items rest item =>
    -- The depth stays the same.
    exact absurd hafter (Nat.not_lt_of_le hbefore)

/-! ## Blocks -/

/-- The lowest of the collections above others is what lies right on top of these. -/
theorem getLast?_above (h : own :: outer <:+ after.stack) :
    (after.above outer.length).getLast? = some own := by
  obtain ⟨higher, hstack⟩ := h
  have hsplit : after.stack = (higher ++ [own]) ++ (⟨outer⟩ : Context).stack := by
    rw [← hstack, List.append_cons]
  have habove : after.above outer.length = higher ++ [own] := (above_and_truncate hsplit).1
  rw [habove, List.getLast?_concat]

/-- Nothing lies above as many collections as there are. -/
theorem above_of_depth_le (h : after.depth ≤ d) : after.above d = [] := by
  rw [above, Nat.sub_eq_zero_of_le h, List.take_zero]

/-- What stands in the place of the own collection after a course of changes. -/
theorem Course.handsOver (hcourse : Course ctx events after) (hstart : ctx.stack = [] :: outer) :
    HandsOver outer.length events ((after.above outer.length).getLast?.getD []) := by
  rcases hcourse.all_or_exists_removal outer.length with
    hkept | ⟨earlier, removal, since, hevents, hremoval, hkept, hsince⟩
  · have hstart' : [] :: outer <:+ ctx.stack := hstart ▸ List.suffix_rfl
    have hown : ([] ++ appendedAt (outer.length + 1) events) :: outer <:+ after.stack :=
      hcourse.suffix hstart' hkept
    rw [getLast?_above hown]
    exact .own hkept
  · cases hsince with
    | nil =>
      rw [above_of_depth_le hremoval]
      exact .nothing hevents hremoval
    | @cons _ _ replacement later hbefore hchange hlater =>
      obtain ⟨hreplacement, hkept⟩ := List.forall_mem_cons.1 hkept
      obtain ⟨hdepth, pushed, hpushed⟩ := hchange.eq_push (hbefore ▸ hremoval) hreplacement
      -- From here on the pushed collection is to the rest of the block what its own one was.
      have hother : (pushed ++ appendedAt (replacement.before.depth + 1) later)
          :: replacement.before.stack <:+ after.stack :=
        hlater.suffix (hpushed ▸ List.suffix_rfl) fun event hmem => by
          rw [← depth, hdepth]
          exact hkept event hmem
      have hlast := getLast?_above hother
      rw [← depth, hdepth] at hlast
      rw [hlast]
      exact .other hevents hremoval hdepth hpushed hkept

/-- **What is handed over**, whatever a block does with the stack. It is the block's own collection
    if the block never took that one off, nothing if nothing stands in its place at the end, and
    otherwise the collection that the block has pushed there since. -/
theorem collect_hands_over {ε α : Type} {program : Program ε α} {result : α}
    (h : (program.run (ctx.push [])).1 = .done result) :
    ∃ handed, (ctx.collect program.run).1 = .done (handed, result)
      ∧ HandsOver ctx.depth (program.events (ctx.push [])) handed :=
  ⟨_, fst_collect_of_done h, (program.course (ctx.push [])).handsOver rfl⟩

/-- A block that takes its own collection off and pushes another one. -/
def swapping : Program String Unit :=
  .call .pop fun _ =>
  .call (.push [.comment "shed"]) fun _ =>
  .call (.comment "weeds") fun _ =>
  .done ()

theorem collect_hands_over_swapping :
    (swapping.run (garden.push [])).1 = .done ()
      ∧ (garden.collect swapping.run).1 = .done ([.comment "shed", .comment "weeds"], ())
      ∧ HandsOver garden.depth (swapping.events (garden.push []))
        [.comment "shed", .comment "weeds"] := by
  have hdone : (swapping.run (garden.push [])).1 = .done () := rfl
  obtain ⟨handed, hcollect, hhanded⟩ := collect_hands_over hdone
  obtain rfl : handed = [.comment "shed", .comment "weeds"] :=
    (Prod.mk.inj (Ending.done.inj (hcollect.symm.trans rfl))).1
  exact ⟨hdone, hcollect, hhanded⟩

/-- It hands the other one over, not its own and not nothing. -/
theorem not_handsOwnOver_swapping :
    ∃ handed, (garden.collect swapping.run).1 = .done (handed, ())
      ∧ ¬HandsOwnOver garden.depth (swapping.events (garden.push [])) handed := by
  refine ⟨[.comment "shed", .comment "weeds"], rfl, fun h => ?_⟩
  have hgone : ∃ event ∈ swapping.events (garden.push []), event.after.depth ≤ garden.depth := by
    decide
  exact List.cons_ne_nil _ _ (h.gone hgone)

end Context
end GameContent
