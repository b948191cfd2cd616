import GameContent.RecordError
import GameContent.Transition.Template

/-!
# `Transition.GraphError` — what can go wrong with transition graphs

The causes for which a graph cannot be expanded or compiled, and their wording.
-/

namespace GameContent

/-- Why a graph cannot be expanded or compiled. -/
inductive GraphError where
  /-- A redirect leads to a state that the graph does not have. -/
  | unknownNode (id : String)
  /-- The id of a waiting state is taken. -/
  | syntheticIdCollision (id : String)
  /-- A transition with another trigger than `newDay` is delayed. -/
  | delayedNonDay (head tail trigger : String) (days : Nat)
  /-- A transition that is delayed was to be compiled. -/
  | unexpandedDelay (head tail : String) (days : Nat)
  /-- A description cannot be rendered. -/
  | template (error : TemplateError)
  /-- A record cannot be registered. -/
  | record (error : RecordError)
deriving DecidableEq, Repr

/-- The wording of the error. -/
def GraphError.message : GraphError → String
  | .unknownNode id => "node " ++ Text.quoted id ++ " is not in the transition graph"
  | .syntheticIdCollision id =>
    "synthetic node " ++ Text.quoted id ++ " collides with an existing node"
  | .delayedNonDay head tail trigger days =>
    head ++ " -> " ++ tail ++ " delays a " ++ trigger ++ " transition by " ++ toString days
      ++ " days; only newDay can be delayed"
  | .unexpandedDelay head tail days =>
    head ++ " -> " ++ tail ++ " still carries a " ++ toString days
      ++ "-day delay; expand the graph before compiling"
  | .template error => error.message
  | .record error => error.message

end GameContent
