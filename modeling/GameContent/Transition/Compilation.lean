import GameContent.Context
import GameContent.Entity.ItemType
import GameContent.Entity.Plain
import GameContent.Transition.Graph
import GameContent.Transition.GraphError

/-!
# `Transition.Compilation` — states as items

Every state but the sentinel becomes an item with the properties of the state and one reaction for
each state it leads to. If several transitions lead from one state to another, only the one that was
added first counts. A graph with a delayed transition has to be expanded first.
-/

namespace GameContent
namespace Graph

/-- The id of the terminal state, for which no item is made. -/
def defaultSentinel : String := "X"

/-- The transitions that are the first to lead to their target, where the targets in `seen` have
    been led to already. -/
def firstPerTail (seen : List String) : List Edge → List Edge
  | [] => []
  | e :: es =>
    if e.tail ∈ seen then firstPerTail seen es else e :: firstPerTail (e.tail :: seen) es

/-- The reaction that a transition becomes. -/
def reactionOf (e : Edge) : Record :=
  itemReaction <| .ofList
    [("element", e.transition.trigger.name), ("newID", e.tail),
      ("spawnItem", e.transition.spawn.getD .null), ("action", .ofOption .str e.transition.action)]

/-- The item that a state becomes. -/
def itemOf (g : Graph) (id : String) : Record :=
  (((ItemType.item id).withProperties ((g.properties? id).getD ∅)).withReactions
    ((firstPerTail [] (g.outgoing id)).map reactionOf)).build

/-- The item that a state becomes, unless a transition from it is delayed. -/
def compileNode (g : Graph) (id : String) : Except GraphError Record :=
  match (g.outgoing id).findSome? fun e => e.transition.delay.map (e, ·) with
  | some (e, days) => .error (.unexpandedDelay id e.tail days)
  | none => .ok (g.itemOf id)

/-- The items of several states, or the first error. -/
def compileNodes (g : Graph) : List String → Except GraphError (List Record)
  | [] => .ok []
  | id :: ids => do
    let record ← g.compileNode id
    let records ← compileNodes g ids
    return record :: records

/-- The items of all states but the sentinel, in the order in which the states were added. -/
def compileRecords (sentinel : String) (g : Graph) : Except GraphError (List Record) :=
  g.compileNodes (g.ids.filter (· ≠ sentinel))

/-- Registers the items of a graph in the innermost collection. If the graph cannot be compiled
    nothing is registered. -/
def compile (sentinel : String) (g : Graph) (ctx : Context) :
    Except GraphError (List RecordRef) × Context :=
  match ctx.current? with
  | none => (.error (.record .noActiveCollection), ctx)
  | some _ =>
    match g.compileRecords sentinel with
    | .error e => (.error e, ctx)
    | .ok records =>
      let (outcome, ctx) := ctx.registerAll records
      (outcome.mapError .record, ctx)

end Graph
end GameContent
