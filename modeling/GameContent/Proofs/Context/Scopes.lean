import GameContent.Context
import Mathlib.Data.List.Infix

/-!
# `Proofs.Context.Scopes` — a block and the collections around it

A block runs on a collection of its own and may call the context as it likes: it pushes and pops,
appends to whatever is innermost, and runs further blocks, each of which ends in its own way. As
long as it does not take its own collection off, the collections around it lie below everything it
touches, and what it appends to its own collection is all that this collection gets.

## Contents
- **Programs.** `Call` is one call on a context, and `Program` a block made of calls and of further
  blocks, whose course depends on the answers. `Program.run` runs it, and `Program.events` tells
  what happens on the way.
- **One change.** `Event.IsChange` lists what a change can be, and `Event.IsChange.suffix` is the
  step: the own collection and those below it stay, and the own collection grows by what is appended
  while it is innermost.
- **A block.** Its events are a `Course` of changes, by induction on the program; `Course.suffix` is
  the run, by induction on the course.
- **Scopes.** `collect_restores_stack` says what `collect` leaves and what it hands over.
-/

namespace GameContent
namespace Context

/-! ## Programs -/

/-- A call on a context. -/
inductive Call where
  /-- Makes a collection the innermost one. -/
  | push (items : Collection)
  /-- Takes the innermost collection off. -/
  | pop
  /-- Registers a record. -/
  | register (record : Record)
  /-- Appends a comment. -/
  | comment (text : String)
  /-- Appends a collection as one item. -/
  | nest (items : Collection)

/-- One change of a context. -/
structure Event where
  /-- The context before. -/
  before : Context
  /-- The item that is appended to the innermost collection, if any. -/
  appended : Option Item
  /-- The context after. -/
  after : Context

namespace Call

/-- What a call answers. -/
def Reply : Call → Type
  | push _ => Unit
  | pop => Option Collection
  | register _ => Registration
  | comment _ => Bool
  | nest _ => Option Collection

/-- The item that a call is to append. Only named records are appended. -/
def item? : Call → Option Item
  | push _ => none
  | pop => none
  | register record => record.id?.map fun _ => .record record
  | comment text => some (.comment text)
  | nest items => some (.collection items)

/-- The answer to a call, and the context after it. A collection that cannot be appended is handed
    back. -/
def run : (c : Call) → Context → c.Reply × Context
  | push items, ctx => ((), ctx.push items)
  | pop, ctx => ctx.pop
  | register record, ctx => ctx.register record
  | comment text, ctx =>
    match ctx.append? (.comment text) with
    | some after => (true, after)
    | none => (false, ctx)
  | nest items, ctx =>
    match ctx.append? (.collection items) with
    | some after => (none, after)
    | none => (some items, ctx)

/-- What a call changes. Nothing is appended if there is no collection. -/
def event (c : Call) (ctx : Context) : Event :=
  ⟨ctx, ctx.current?.bind fun _ => c.item?, (c.run ctx).2⟩

end Call

/-- A block: a program of calls and of further blocks with collections of their own. How it goes on
    depends on the answers and on how those blocks end. -/
inductive Program : Type → Type → Type 1 where
  /-- It returns a result. -/
  | done {ε α : Type} (result : α) : Program ε α
  /-- It gives up with an error. -/
  | failed {ε α : Type} (error : ε) : Program ε α
  /-- It is left without a result or an error. -/
  | unwound {ε α : Type} : Program ε α
  /-- It makes a call and goes on with the answer. -/
  | call {ε α : Type} (c : Call) (next : c.Reply → Program ε α) : Program ε α
  /-- It runs a block on a collection of its own and goes on with what comes of it. -/
  | collect {ε α δ β : Type} (inner : Program δ β)
    (next : Ending δ (Collection × β) → Program ε α) : Program ε α

namespace Program

/-- How a block ends, and the context that it leaves. -/
def run {ε α : Type} : Program ε α → Context → Ending ε α × Context
  | done result, ctx => (.done result, ctx)
  | failed error, ctx => (.failed error, ctx)
  | unwound, ctx => (.unwound, ctx)
  | call c next, ctx => (next (c.run ctx).1).run (c.run ctx).2
  | collect inner next, ctx =>
    (next (ctx.collect inner.run).1).run (ctx.collect inner.run).2

/-- Every change of the context while a block runs, in order. A block inside it makes its collection
    innermost, changes what it changes, and has everything above the old depth taken off. -/
def events {ε α : Type} : Program ε α → Context → List Event
  | done _, _ => []
  | failed _, _ => []
  | unwound, _ => []
  | call c next, ctx => c.event ctx :: (next (c.run ctx).1).events (c.run ctx).2
  | collect inner next, ctx =>
    ⟨ctx, none, ctx.push []⟩ :: inner.events (ctx.push [])
      ++ ⟨(inner.run (ctx.push [])).2, none, (ctx.collect inner.run).2⟩
      :: (next (ctx.collect inner.run).1).events (ctx.collect inner.run).2

end Program

/-- The items that are appended while the given number of collections is active, in order. -/
def appendedAt (depth : Nat) (events : List Event) : List Item :=
  events.filterMap fun event => if event.before.depth = depth then event.appended else none

@[simp] theorem appendedAt_nil (depth : Nat) : appendedAt depth [] = [] := rfl

theorem appendedAt_append (depth : Nat) (es fs : List Event) :
    appendedAt depth (es ++ fs) = appendedAt depth es ++ appendedAt depth fs :=
  List.filterMap_append

theorem appendedAt_cons (depth : Nat) (event : Event) (es : List Event) :
    appendedAt depth (event :: es) = appendedAt depth [event] ++ appendedAt depth es :=
  appendedAt_append depth [event] es

/-- One change appends at most one item, to the collection that is innermost before it. -/
theorem appendedAt_singleton (depth : Nat) (event : Event) :
    appendedAt depth [event]
      = if event.before.depth = depth then event.appended.toList else [] := by
  rw [appendedAt, List.filterMap_cons]
  by_cases h : event.before.depth = depth
  · rw [if_pos h, if_pos h]
    cases event.appended <;> rfl
  · rw [if_neg h, if_neg h]
    rfl

variable {ctx after : Context} {own : Collection} {outer : List Collection} {events : List Event}

/-! ## One change -/

/-- **What a change can be.** Something is pushed, taken off or appended. -/
inductive Event.IsChange : Event → Prop where
  /-- A collection becomes the innermost one. -/
  | push (ctx : Context) (items : Collection) : IsChange ⟨ctx, none, ctx.push items⟩
  /-- Collections are taken off from the inside, or nothing happens. -/
  | drop {before after : Context} (h : after.stack <:+ before.stack) : IsChange ⟨before, none, after⟩
  /-- An item is appended to the innermost collection. -/
  | append (items : Collection) (rest : List Collection) (item : Item) :
      IsChange ⟨⟨items :: rest⟩, some item, ⟨(items ++ [item]) :: rest⟩⟩

theorem Call.isChange_event (c : Call) (ctx : Context) : (c.event ctx).IsChange := by
  obtain ⟨stack⟩ := ctx
  cases stack with
  | nil =>
    cases c with
    | push items => exact .push _ items
    | pop => exact .drop List.suffix_rfl
    | register record =>
      refine .drop ?_
      show (Context.register record ⟨[]⟩).2.stack <:+ []
      unfold Context.register
      cases record.id? <;> exact List.suffix_rfl
    | comment text => exact .drop List.suffix_rfl
    | nest items => exact .drop List.suffix_rfl
  | cons items rest =>
    cases c with
    | push pushed => exact .push _ pushed
    | pop => exact .drop (List.suffix_cons items rest)
    | register record =>
      show Event.IsChange ⟨_, record.id?.map fun _ => .record record,
        (Context.register record ⟨items :: rest⟩).2⟩
      unfold Context.register
      cases record.id? with
      | none => exact .drop List.suffix_rfl
      | some id => exact .append items rest (.record record)
    | comment text => exact .append items rest (.comment text)
    | nest nested => exact .append items rest (.collection nested)

/-- **The step.** A change that does not take the own collection off keeps it and everything below.
    What is appended while the own collection is innermost goes to the end of that one. -/
theorem Event.IsChange.suffix {event : Event} (hchange : event.IsChange)
    (h : own :: outer <:+ event.before.stack) (hdepth : outer.length + 1 ≤ event.after.depth) :
    (own ++ appendedAt (outer.length + 1) [event]) :: outer <:+ event.after.stack := by
  rw [appendedAt_singleton]
  cases hchange with
  | push before items =>
    rw [Option.toList_none, ite_self, List.append_nil]
    exact h.trans (List.suffix_cons items _)
  | drop hdrop =>
    rw [Option.toList_none, ite_self, List.append_nil]
    exact List.suffix_of_suffix_length_le h hdrop hdepth
  | append items rest item =>
    obtain ⟨above, hstack⟩ := h
    cases above with
    | nil =>
      -- The own collection is innermost.
      obtain ⟨rfl, rfl⟩ := List.cons.inj hstack
      have hlength : (⟨own :: outer⟩ : Context).depth = outer.length + 1 := rfl
      rw [if_pos hlength]
      exact List.suffix_rfl
    | cons innermost above =>
      -- Something else is innermost, and the own collection lies below it.
      obtain ⟨rfl, hrest⟩ := List.cons.inj hstack
      have hbelow : above ++ own :: outer = rest := hrest
      have hlength : (⟨innermost :: rest⟩ : Context).depth ≠ outer.length + 1 := by
        rw [depth, List.length_cons, ← hbelow, List.length_append, List.length_cons]
        omega
      rw [if_neg hlength, List.append_nil]
      exact List.IsSuffix.trans ⟨above, hbelow⟩ (List.suffix_cons _ _)

/-! ## A block -/

/-- Changes that lead from one context to another, each of them starting where the one before it
    ended. -/
inductive Course : Context → List Event → Context → Prop where
  /-- Nothing changes. -/
  | nil (ctx : Context) : Course ctx [] ctx
  /-- One change and then the others. -/
  | cons {ctx after : Context} {event : Event} {events : List Event} (hbefore : event.before = ctx)
      (hchange : event.IsChange) (hrest : Course event.after events after) :
      Course ctx (event :: events) after

theorem Course.append {between : Context} {later : List Event} (h : Course ctx events between)
    (hlater : Course between later after) : Course ctx (events ++ later) after := by
  induction h with
  | nil => exact hlater
  | cons hbefore hchange _ ih => exact .cons hbefore hchange (ih hlater)

/-- What happens while a block runs leads to the context that it leaves. -/
theorem Program.course {ε α : Type} (program : Program ε α) (ctx : Context) :
    Course ctx (program.events ctx) (program.run ctx).2 := by
  induction program generalizing ctx with
  | done _ | failed _ | unwound => exact .nil ctx
  | call c next ih => exact .cons rfl (c.isChange_event ctx) (ih _ _)
  | collect inner next ihinner ih =>
    have htruncate : Event.IsChange
        ⟨(inner.run (ctx.push [])).2, none, (ctx.collect inner.run).2⟩ :=
      .drop (List.drop_suffix _ _)
    have hafter := Course.cons rfl htruncate (ih (ctx.collect inner.run).1 _)
    exact (Course.cons rfl (.push ctx []) (ihinner _)).append hafter

/-- **The run.** Changes that never take the own collection off keep it and everything below. What is
    appended while the own collection is innermost goes to the end of that one, in order. -/
theorem Course.suffix (hcourse : Course ctx events after) (h : own :: outer <:+ ctx.stack)
    (hdepth : ∀ event ∈ events, outer.length + 1 ≤ event.after.depth) :
    (own ++ appendedAt (outer.length + 1) events) :: outer <:+ after.stack := by
  -- The first change has grown the own collection when the others are made.
  induction hcourse generalizing own with
  | nil ctx =>
    rw [appendedAt_nil, List.append_nil]
    exact h
  | cons hbefore hchange _ ih =>
    rw [List.forall_mem_cons] at hdepth
    have hstep := hchange.suffix (hbefore ▸ h) hdepth.1
    rw [appendedAt_cons, ← List.append_assoc]
    exact ih hstep hdepth.2

/-- A block that never takes its own collection off keeps it and everything below. -/
theorem Program.suffix_run {ε α : Type} {program : Program ε α} (h : own :: outer <:+ ctx.stack)
    (hdepth : ∀ event ∈ program.events ctx, outer.length + 1 ≤ event.after.depth) :
    (own ++ appendedAt (outer.length + 1) (program.events ctx)) :: outer
      <:+ (program.run ctx).2.stack :=
  (program.course ctx).suffix h hdepth

/-! ## Scopes -/

/-- The outermost collections are those that come first when the stack is read from its bottom. -/
theorem reverse_stack_truncate (n : Nat) (ctx : Context) :
    (ctx.truncate n).stack.reverse = ctx.stack.reverse.take (min n ctx.depth) := by
  rw [truncate, List.reverse_drop, depth]
  congr 1
  omega

/-- What lies above the collections of a context, and those collections, when they are the outermost
    ones. -/
theorem above_and_truncate {after : Context} {higher : List Collection}
    (h : after.stack = higher ++ ctx.stack) :
    after.above ctx.depth = higher ∧ after.truncate ctx.depth = ctx := by
  have hcount : higher.length = after.depth - ctx.depth := by
    rw [depth, depth, h, List.length_append, Nat.add_sub_cancel]
  constructor
  · rw [above, h, List.take_left' hcount]
  · rw [truncate, h, List.drop_left' hcount]

/-- A block that returns a result hands over the lowest of the collections above the old depth. -/
theorem fst_collect_of_done {ε α : Type} {block : Context → Ending ε α × Context} {result : α}
    (h : (block (ctx.push [])).1 = .done result) :
    (ctx.collect block).1
      = .done (((block (ctx.push [])).2.above ctx.depth).getLast?.getD [], result) := by
  rcases hblock : block (ctx.push []) with ⟨ending, after⟩
  rw [hblock] at h
  obtain rfl : ending = .done result := h
  unfold collect
  rw [hblock]

/-- **What a scope leaves and hands over.** A block that never takes its own collection off leaves
    the stack as it found it, however it ends, and if it returns a result then the collection that
    is handed over has the items that were appended while it was innermost, in order. Any block
    whatsoever leaves the outermost of the collections that are active when it ends, as many of
    them as were active before. -/
theorem collect_restores_stack {ε α : Type} (ctx : Context) :
    (∀ program : Program ε α,
      (∀ event ∈ program.events (ctx.push []), ctx.depth + 1 ≤ event.after.depth) →
        (ctx.collect program.run).2 = ctx
          ∧ ∀ result, (program.run (ctx.push [])).1 = .done result →
            (ctx.collect program.run).1
              = .done (appendedAt (ctx.depth + 1) (program.events (ctx.push [])), result))
      ∧ ∀ block : Context → Ending ε α × Context,
        (ctx.collect block).2.stack.reverse
          = (block (ctx.push [])).2.stack.reverse.take
            (min ctx.depth (block (ctx.push [])).2.depth) := by
  refine ⟨fun program hdepth => ?_, fun block => reverse_stack_truncate _ _⟩
  have hrun : ([] ++ appendedAt (ctx.depth + 1) (program.events (ctx.push []))) :: ctx.stack
      <:+ (program.run (ctx.push [])).2.stack := Program.suffix_run List.suffix_rfl hdepth
  obtain ⟨higher, hstack⟩ := hrun
  rw [List.nil_append, List.append_cons] at hstack
  obtain ⟨habove, htruncate⟩ := above_and_truncate hstack.symm
  refine ⟨htruncate, fun result hdone => ?_⟩
  rw [fst_collect_of_done hdone, habove, List.getLast?_concat]
  rfl

/-- A context in which something is active already. -/
def garden : Context := ⟨[[.comment "garden"]]⟩

/-- A seed. -/
def seed : Record := ⟨"ItemType", .named "seed", ∅, []⟩

/-- A block that registers a seed. The block inside it takes its own collection off, so that its
    comment stands beside the seed, and fails; after that a collection is left pushed. -/
def sowing : Program String Unit :=
  .call (.register seed) fun _ =>
  .collect (.call .pop fun _ => .call (.comment "frost") fun _ => .failed ()) fun
    (_ : Ending Unit (Collection × Unit)) =>
  .call (.push [.comment "lost"]) fun _ =>
  .call (.nest []) fun _ =>
  .done ()

theorem collect_restores_stack_sowing :
    (∀ event ∈ sowing.events (garden.push []), garden.depth + 1 ≤ event.after.depth)
      ∧ (garden.collect sowing.run).2 = garden
      ∧ (garden.collect sowing.run).1 = .done ([.record seed, .comment "frost"], ()) := by
  have hdepth : ∀ event ∈ sowing.events (garden.push []), garden.depth + 1 ≤ event.after.depth := by
    decide
  obtain ⟨hstack, hdone⟩ := (collect_restores_stack garden).1 sowing hdepth
  exact ⟨hdepth, hstack, (hdone () rfl).trans rfl⟩

end Context
end GameContent
