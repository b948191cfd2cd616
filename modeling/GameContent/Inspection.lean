import GameContent.Artifact.Block
import GameContent.Json
import GameContent.Value.Rendering

/-!
# `Inspection` — summaries of artifacts

A summary has a line for each block, the number of blocks, and a line for each type with the number
of its blocks. A dump is the JSON array of the blocks.
-/

namespace GameContent
namespace Inspection

/-- The type of a block. -/
def typeOf (p : Properties) : String :=
  (p.get? Block.typeKey).elim "" Value.render

/-- The id that is shown for a block: the first one, or a dash. -/
def idOf (p : Properties) : String :=
  match p.get? "ID" with
  | some (.list ids) => ids.head?.elim "" Value.render
  | some id => id.render
  | none => "-"

/-- The line of a block. The name of the block does not count as a field. -/
def recordLine (p : Properties) : String :=
  "[" ++ typeOf p ++ "] " ++ idOf p ++ " (" ++ toString (p.size - 1) ++ " fields)\n"

/-- Counts one more occurrence of a type. A new one goes to the end. -/
def count (type : String) : List (String × Nat) → List (String × Nat)
  | [] => [(type, 1)]
  | e :: es => if e.1 = type then (e.1, e.2 + 1) :: es else e :: count type es

/-- The types in the order in which they first occur, with the numbers of their occurrences. -/
def tally (types : List String) : List (String × Nat) :=
  types.foldl (fun counts type => count type counts) []

/-- The line of a type. -/
def typeLine (type : String) (n : Nat) : String :=
  "  " ++ type ++ ": " ++ toString n ++ "\n"

/-- The summary of the blocks of an artifact. -/
def summarize (ps : List Properties) : String :=
  String.join (ps.map recordLine) ++ toString ps.length ++ " records\n"
    ++ String.join ((tally (ps.map typeOf)).map fun e => typeLine e.1 e.2)

/-- The blocks of an artifact as JSON. -/
def dump (ps : List Properties) : String :=
  (Json.array (ps.map Properties.toJson)).pretty

end Inspection
end GameContent
