import GameContent.Record
import GameContent.Text.Pieces

/-!
# `Entity.Dialog` — drafts of dialog nodes

A dialog node has lines, each with the animation that goes with it, and options that lead on. The
engine wants the animations and the statements as two lists that belong together by position, so
they are drafted as pairs. A node can replace another one; its condition may then refer to the node
itself by a placeholder.
-/

namespace GameContent

/-- A line of a dialog with the animation that goes with it, which may be empty. -/
structure DialogLine where
  /-- The name of the animation. -/
  animation : String
  /-- What is said. -/
  statement : String
deriving DecidableEq, Repr

/-- A draft of a dialog node. -/
structure DialogNode where
  /-- The id of the node that this one replaces, if any. -/
  replaces : Option String
  /-- The id of the node, if it was given. -/
  id : Option String
  /-- The properties set so far. -/
  properties : Properties
  /-- The lines added so far. -/
  lines : List DialogLine
  /-- The records of the options added so far. -/
  options : List Record

namespace DialogNode

/-- The text that stands for the id of the node in its own condition. -/
def placeholder : String := "__this_node__"

/-- The key of the condition. -/
def conditionKey : String := "fReq"

/-- The condition that a node has not been seen yet. -/
def notSeen (id : String) : String := "gIs0:D_" ++ id

/-- The condition that a node has been seen. -/
def seen (id : String) : String := "g1:D_" ++ id

/-- A node without lines and options. -/
def plain : DialogNode := ⟨none, none, ∅, [], []⟩

/-- A node that replaces another one. -/
def replacing (id : String) : DialogNode := ⟨some id, none, ∅, [], []⟩

/-- Gives the node an id. -/
def named (d : DialogNode) (id : String) : DialogNode :=
  { d with id := some id }

/-- Sets a property. -/
def property (d : DialogNode) (key : String) (value : Value) : DialogNode :=
  { d with properties := d.properties.set key value }

/-- Adds a line with an animation. -/
def animated (d : DialogNode) (animation statement : String) : DialogNode :=
  { d with lines := d.lines ++ [⟨animation, statement⟩] }

/-- Adds a line without animation. -/
def statement (d : DialogNode) (text : String) : DialogNode :=
  d.animated "" text

/-- Adds an option that leads to `node`. Without an id it shows none. -/
def option (d : DialogNode) (text : String) (node : Value) (extra : Properties)
    (id : Option String) : DialogNode :=
  let properties := (extra.set "text" text).set "nodeToConnectTo" node
  let identity := id.elim Identity.absent Identity.named
  { d with options := d.options ++ [⟨"DialogOption", identity, properties, []⟩] }

/-- A condition with the id of the node put in for the placeholder. Only a text can hold it. -/
def resolve (id : String) : Value → Value
  | .str condition => .str (Text.replaceAll placeholder id condition)
  | v => v

/-- What a node that replaces another one says about it. -/
def overrideProperties (id replaced : String) (p : Properties) : Properties :=
  (p.set "dialogNodeID_toOverride" replaced).modify conditionKey (resolve id)

/-- The record of the node. A node without an id gets the fresh one. -/
def build (fresh : String) (d : DialogNode) : Record :=
  let id := d.id.getD fresh
  let properties := match d.replaces with
    | some replaced => overrideProperties id replaced d.properties
    | none => d.properties
  { typeName := if d.replaces.isSome then "DialogNodeOverride" else "DialogNode"
    identity := .named id
    properties := (properties.set "animations" (.texts (d.lines.map DialogLine.animation))).set
      "statements" (.texts (d.lines.map DialogLine.statement))
    subrecords := d.options }

end DialogNode
end GameContent
