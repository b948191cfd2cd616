import GameContent.Decimal.Layout
import GameContent.Text.Quoted

/-!
# `Entity.ValidationError` — arguments that make no sense

The causes for which a duration has no code or a journal entry cannot be built, and their wording.
-/

namespace GameContent

/-- Why an argument is refused. -/
inductive ValidationError where
  /-- A number of ticks that is not positive. -/
  | nonPositiveTicks (count : Int64)
  /-- A number of turns that is not positive. -/
  | endOfTurnCount (count : Int64)
  /-- A journal entry without a title. -/
  | missingTitle (id : String)
deriving DecidableEq, Repr

/-- The wording of the error. -/
def ValidationError.message : ValidationError → String
  | .nonPositiveTicks count =>
    "tick count must be greater than 0, got " ++ String.ofList (intChars count.toInt)
  | .endOfTurnCount count =>
    "end-of-turn count must be at least 1, got " ++ String.ofList (intChars count.toInt)
  | .missingTitle id => "journal entry " ++ Text.quoted id ++ " needs a title"

end GameContent
