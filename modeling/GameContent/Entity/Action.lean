import GameContent.Entity.Duration
import GameContent.Record

/-!
# `Entity.Action` — actions, affecters and their areas of effect

An action and each of its affecters own an area of effect, which has to be of the right kind. Where
none is given, a single tile is meant.
-/

namespace GameContent

/-- An area of effect. -/
structure Area where
  /-- What it is an area of. -/
  kind : AreaKind
  /-- Its properties. -/
  properties : Properties

namespace Area

/-- A single tile. -/
def basic (kind : AreaKind) : Area := ⟨kind, .ofList [("cloneFrom", "oneTile")]⟩

/-- The record of an area that is to stand in a record of type `record`. -/
def recordFor (record : String) (expected : AreaKind) (a : Area) : Except RecordError Record :=
  if a.kind = expected then .ok ⟨a.kind.typeName, .inherited, a.properties, []⟩
  else .error (.wrongAreaKind record expected a.kind)

end Area

/-- A draft of what an action does to attribute values. -/
structure Affecter where
  /-- Its area, if one was given. -/
  area : Option Area
  /-- The properties set so far. -/
  properties : Properties

/-- The record of an affecter. It acts once unless a duration was set. -/
def Affecter.build (a : Affecter) : Except RecordError Record := do
  let area ← (a.area.getD (.basic .affecter)).recordFor "AvAffecter" .affecter
  let properties := a.properties.setDefault "duration" (.int Duration.instantaneousCode)
  return ⟨"AvAffecter", .inherited, properties, [area]⟩

/-- A draft of an action. -/
structure Action where
  /-- The id of the action. -/
  id : String
  /-- Its area, if one was given. -/
  area : Option Area
  /-- The records of its affecters. -/
  affecters : List Record
  /-- The properties set so far. -/
  properties : Properties

/-- The record of an action. Its area stands before its affecters. -/
def Action.build (a : Action) : Except RecordError Record := do
  let area ← (a.area.getD (.basic .action)).recordFor "Action" .action
  return ⟨"Action", .named a.id, a.properties, area :: a.affecters⟩

end GameContent
