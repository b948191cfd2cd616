import GameContent.Entity.ValidationError

/-!
# `Entity.Duration` — how long an effect lasts

The engine encodes a duration as one integer: positive ones count ticks, negative ones are markers.
-/

namespace GameContent

/-- How long an effect lasts. -/
inductive Duration where
  /-- For a number of ticks. -/
  | ticks (count : Int64)
  /-- Until it is ended. -/
  | indefinite
  /-- For no time: it acts once. -/
  | instantaneous
  /-- For ever. -/
  | permanent
  /-- Until the next turn starts. -/
  | startOfTurn
  /-- Until the end of the turn with the given number, counted from the current one. -/
  | endOfTurn (count : Int64)
deriving DecidableEq, Repr

namespace Duration

/-- The marker of what acts once, which is also that of what lasts for ever. -/
def instantaneousCode : Int64 := -2

/-- The integer that stands for a duration. Counts have to be positive. -/
def code : Duration → Except ValidationError Int64
  | .ticks count => if 0 < count then .ok count else .error (.nonPositiveTicks count)
  | .indefinite => .ok (-1)
  | .instantaneous => .ok instantaneousCode
  | .permanent => .ok instantaneousCode
  | .startOfTurn => .ok (-3)
  | .endOfTurn count => if 0 < count then .ok (-3 - count) else .error (.endOfTurnCount count)

end Duration
end GameContent
