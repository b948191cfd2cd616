import GameContent.Collection

/-!
# `Context` — the stack of active collections

Content is authored against a context: a stack of collections, of which the innermost one receives
what is registered. `collect` runs a block on a collection of its own and takes that collection off
again, however the block ends.
-/

namespace GameContent

/-- A stack of active collections. -/
structure Context where
  /-- The active collections, the innermost one first. -/
  stack : List Collection

/-- What became of a record that was to be registered. -/
inductive Registration where
  /-- The record is the last item of the innermost collection. -/
  | registered (reference : RecordRef)
  /-- The record has no id, or there is no active collection. It is handed back. -/
  | detached (record : Record)

namespace Context

/-- The context without active collections. -/
def empty : Context := ⟨[]⟩

instance : EmptyCollection Context := ⟨empty⟩

instance : Inhabited Context := ⟨empty⟩

/-- The number of active collections. -/
def depth (ctx : Context) : Nat :=
  ctx.stack.length

/-- The innermost collection. -/
def current? (ctx : Context) : Option Collection :=
  ctx.stack.head?

/-- Makes a collection the innermost one. -/
def push (items : Collection) (ctx : Context) : Context :=
  ⟨items :: ctx.stack⟩

/-- Takes the innermost collection off, if there is one. -/
def pop (ctx : Context) : Option Collection × Context :=
  (ctx.stack.head?, ⟨ctx.stack.tail⟩)

/-- Appends an item to the innermost collection, or answers `none` if there is no collection. -/
def append? (item : Item) (ctx : Context) : Option Context :=
  match ctx.stack with
  | [] => none
  | items :: outer => some ⟨(items ++ [item]) :: outer⟩

/-- Registers a record. Only named records are registered. -/
def register (record : Record) (ctx : Context) : Registration × Context :=
  match record.id?, ctx.append? (.record record) with
  | some id, some ctx => (.registered ⟨id⟩, ctx)
  | _, _ => (.detached record, ctx)

/-- Registers several records in order and stops at the first that is not registered. -/
def registerAll : List Record → Context → Except RecordError (List RecordRef) × Context
  | [], ctx => (.ok [], ctx)
  | record :: records, ctx =>
    match ctx.register record with
    | (.detached _, ctx) => (.error .noActiveCollection, ctx)
    | (.registered reference, ctx) =>
      let (rest, ctx) := registerAll records ctx
      (rest.map (reference :: ·), ctx)

/-- The stack with the first record of the id changed, the innermost collection being searched
    first, or `none` if no collection has such a record. -/
def updateFirst? (id : String) (f : Record → Record) : List Collection → Option (List Collection)
  | [] => none
  | items :: outer =>
    match Collection.updateRecord? id f items with
    | some items => some (items :: outer)
    | none => (updateFirst? id f outer).map (items :: ·)

/-- The first record with the id, the innermost collection being searched first. -/
def findRecord? (id : String) (ctx : Context) : Option Record :=
  ctx.stack.findSome? (Collection.findRecord? id)

/-- Changes the first record with the id, the innermost collection being searched first. -/
def updateRecord? (id : String) (f : Record → Record) (ctx : Context) : Option Context :=
  (updateFirst? id f ctx.stack).map Context.mk

end Context

/-! ## Blocks with a collection of their own -/

/-- How a block ends. -/
inductive Ending (ε α : Type) where
  /-- The block returns a result. -/
  | done (result : α)
  /-- The block gives up with an error. -/
  | failed (error : ε)
  /-- The block is left without a result or an error. -/
  | unwound

namespace Context

/-- The part of the stack that lies above the outermost `depth` collections, innermost first. -/
def above (depth : Nat) (ctx : Context) : List Collection :=
  ctx.stack.take (ctx.depth - depth)

/-- The context with all but its outermost `depth` collections taken off. -/
def truncate (depth : Nat) (ctx : Context) : Context :=
  ⟨ctx.stack.drop (ctx.depth - depth)⟩

/-- Runs a block on a new innermost collection. Afterwards everything above the old depth is taken
    off, and a block that is done hands over what lies just above it: its own collection, unless it
    popped that. -/
def collect {ε α : Type} (block : Context → Ending ε α × Context) (ctx : Context) :
    Ending ε (Collection × α) × Context :=
  let (ending, after) := block (ctx.push [])
  let ending := match ending with
    | .done result => .done ((after.above ctx.depth).getLast?.getD [], result)
    | .failed error => .failed error
    | .unwound => .unwound
  (ending, after.truncate ctx.depth)

end Context
end GameContent
