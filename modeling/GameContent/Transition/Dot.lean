import GameContent.Transition.Graph

/-!
# `Transition.Dot` — transition graphs as DOT drawings

The states of the drawing are numbered in the order in which they were added and labelled with their
ids; the transitions follow in the order of their slots, labelled with the names of their triggers.
-/

namespace GameContent
namespace Graph

/-- How one character is written in a label. A line break ends a left-justified line. -/
def labelChar (c : Char) : List Char :=
  match c with
  | '"' => ['\\', '"']
  | '\\' => ['\\', '\\']
  | '\n' => ['\\', 'l']
  | c => [c]

/-- The attribute list that labels a state or a transition. -/
def label (s : String) : String :=
  " [ label = \"" ++ String.ofList (s.toList.flatMap labelChar) ++ "\" ]\n"

/-- The transitions in the order of their slots. -/
def edgesBySlot (g : Graph) : List Edge :=
  g.edges.mergeSort fun e f => e.slot ≤ f.slot

/-- The line of a state with the given number. -/
def nodeLine (id : String) (number : Nat) : String :=
  "    " ++ toString number ++ label id

/-- The line of a transition. -/
def edgeLine (g : Graph) (e : Edge) : String :=
  "    " ++ toString (g.position e.head) ++ " -> " ++ toString (g.position e.tail)
    ++ label e.transition.trigger.name

/-- The drawing of a graph. -/
def toDot (g : Graph) : String :=
  "digraph \x7b\n" ++ String.join (g.ids.zipIdx.map fun (id, i) => nodeLine id i)
    ++ String.join (g.edgesBySlot.map g.edgeLine) ++ "\x7d\n"

theorem edgesBySlot_perm (g : Graph) : g.edgesBySlot.Perm g.edges :=
  List.mergeSort_perm _ _

end Graph
end GameContent
