import GameContent.Transition.Graph
import GameContent.Transition.GraphError

/-!
# `Transition.Expansion` — delays as chains of days

A `newDay` transition that takes `n > 1` days becomes a chain of `n` transitions of one day through
`n - 1` waiting states. Each waiting state clones the state before it, and each offers the redirects
of the transition; only the last transition of the chain spawns what the delayed one did and carries
its action.

## Contents
- `IdScheme` forms the ids of waiting states.
- `delayed` lists the delayed transitions, and `check` refuses those that are not daily.
- `waitingStates` and `moves` give the states and the transitions of one chain.
- `Plan` gathers what is to be added, with `Plan.unroll` for one delayed transition after the other.
- `expand` makes the plan for all of them and then carries it out.
-/

namespace GameContent

/-- How the ids of waiting states are formed. -/
inductive IdScheme where
  /-- From the id of the head and the number of the waiting state. -/
  | dayIndexed
  /-- From the id of the state before. -/
  | suffix
deriving DecidableEq, Repr

/-- The id of the waiting state with the number `step` of the chain from `head`. -/
def IdScheme.waitingId (head previous : String) (step : Nat) : IdScheme → String
  | .dayIndexed => head ++ "__day" ++ toString step
  | .suffix => previous ++ "_"

namespace Expansion

/-- A transition that takes more than one day. -/
structure Delayed where
  /-- The transition in its place. -/
  edge : Edge
  /-- The number of days. -/
  days : Nat

/-- A state in which a delayed transition waits. -/
structure WaitingState where
  /-- The id of the state. -/
  id : String
  /-- The id of the state before it in its chain. -/
  previous : String
  /-- The properties of the state. -/
  properties : Properties

/-- A transition that is to be added. -/
structure Move where
  /-- The id of the state it leaves. -/
  head : String
  /-- The id of the state it leads to. -/
  tail : String
  /-- Its attributes. -/
  transition : Transition

/-- The delayed transitions: state by state, and for each in the order in which they were added. -/
def delayed (g : Graph) : List Delayed :=
  (g.ids.flatMap g.outgoing).filterMap fun e => e.transition.delay.map (⟨e, ·⟩)

/-- Refuses a delayed transition that is not daily. -/
def check (ds : List Delayed) : Except GraphError Unit :=
  match ds.find? fun d => d.edge.transition.trigger ≠ .newDay with
  | none => .ok ()
  | some ⟨e, days⟩ => .error (.delayedNonDay e.head e.tail e.transition.trigger.name days)

/-- Refuses a redirect to a state that the graph does not have. -/
def checkTargets (g : Graph) (rs : List Redirect) : Except GraphError Unit :=
  match rs.find? fun r => !g.contains r.target with
  | none => .ok ()
  | some r => .error (.unknownNode r.target)

/-- The description of a state with the given days left, rendered against a property bag. Without a
    template there is none. -/
def description? (template : Option String) (days : Nat) (bag : Option Properties) :
    Except GraphError (Option String) :=
  match template with
  | none => .ok none
  | some template =>
    match Template.render template days bag with
    | .ok text => .ok (some text)
    | .error e => .error (.template e)

/-- Sets the description of a bag, if there is one. -/
def describe (text : Option String) (p : Properties) : Properties :=
  text.elim p (p.set "description" ·)

/-- Sets the description of a state, if there is one. -/
def describeNode (id : String) (text : Option String) (g : Graph) : Graph :=
  text.elim g fun text => g.modifyProperties id fun p =>
    some ((p.getD ∅).set "description" text)

/-- The properties of a waiting state, apart from its description: it clones the state before it but
    not the reactions, and it is hidden. -/
def waitingProperties (previous : String) : Properties :=
  .ofList [("cloneFrom", previous), ("special", .texts ["dontCloneReactions"]),
    ("itemCategory", "hide")]

/-- The next `count` waiting states of a chain, from the number `step` on. None of their ids may be
    taken. A state before which `count` transitions of the chain remain is `count` days from the
    end. -/
def waitingStates (scheme : IdScheme) (g : Graph) (d : Delayed) (taken : List String)
    (previous : String) (step : Nat) : (count : Nat) → Except GraphError (List WaitingState)
  | 0 => .ok []
  | count + 1 =>
    let id := scheme.waitingId d.edge.head previous step
    if g.contains id ∨ id ∈ taken then .error (.syntheticIdCollision id)
    else do
      let text ← description? d.edge.transition.description (count + 1)
        (g.properties? d.edge.head)
      let rest ← waitingStates scheme g d (id :: taken) id (step + 1) count
      return ⟨id, previous, describe text (waitingProperties previous)⟩ :: rest

/-- The transition into a waiting state and those out of it by redirects. -/
def movesAt (rs : List Redirect) (w : WaitingState) : List Move :=
  ⟨w.previous, w.id, .on .newDay⟩ :: rs.map fun r => ⟨w.id, r.target, .on r.trigger⟩

/-- What remains of a delayed transition on the last day of its chain. -/
def arrival (t : Transition) : Transition :=
  { Transition.on .newDay with spawn := t.spawn.filter (!·.isNull), action := t.action }

/-- The transitions of a chain through the given waiting states. -/
def moves (d : Delayed) (ws : List WaitingState) : List Move :=
  let last := (ws.getLast?.map WaitingState.id).getD d.edge.head
  ws.flatMap (movesAt d.edge.transition.redirects)
    ++ [⟨last, d.edge.tail, arrival d.edge.transition⟩]

/-! ## Plans -/

/-- What the expansion has prepared so far. -/
structure Plan where
  /-- The graph with the descriptions of the heads of chains. -/
  graph : Graph
  /-- The waiting states to add. -/
  waiting : List WaitingState
  /-- The transitions to add. -/
  moves : List Move

/-- Adds the chain of one delayed transition to a plan. -/
def Plan.unroll (scheme : IdScheme) (plan : Plan) (d : Delayed) : Except GraphError Plan := do
  let t := d.edge.transition
  checkTargets plan.graph t.redirects
  let text ← description? t.description d.days (plan.graph.properties? d.edge.head)
  let graph := describeNode d.edge.head text plan.graph
  let ws ← waitingStates scheme graph d (plan.waiting.map WaitingState.id) d.edge.head 1
    (d.days - 1)
  return ⟨graph, plan.waiting ++ ws, plan.moves ++ Expansion.moves d ws⟩

/-- Adds the chains of several delayed transitions to a plan, in order. -/
def Plan.unrollAll (scheme : IdScheme) : Plan → List Delayed → Except GraphError Plan
  | plan, [] => .ok plan
  | plan, d :: ds => do
    let plan ← plan.unroll scheme d
    unrollAll scheme plan ds

/-- Carries out a plan: the delayed transitions go, then the moves and the properties of the waiting
    states are added. -/
def Plan.apply (plan : Plan) (ds : List Delayed) : Graph :=
  let g := ds.foldl (fun g d => g.removeTransition d.edge.slot) plan.graph
  let g := plan.moves.foldl (fun g m => g.addTransition m.head m.tail m.transition) g
  plan.waiting.foldl (fun g w => g.setProperties w.id w.properties) g

end Expansion

open Expansion in
/-- The graph with every delayed transition unrolled into a chain of days. -/
def Graph.expand (scheme : IdScheme) (g : Graph) : Except GraphError Graph := do
  let ds := delayed g
  check ds
  let plan ← Plan.unrollAll scheme ⟨g, [], []⟩ ds
  return plan.apply ds

end GameContent
