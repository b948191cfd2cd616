import GameContent.Record

/-!
# `Entity.GlobalTrigger` — triggers on the map and their effects

A global trigger covers an area of the map, by default the single tile at the origin, and owns the
effects that it has.
-/

namespace GameContent

/-- A draft of an effect. The engine knows two texts, two numbers and two truth values. -/
structure TriggerEffect where
  /-- The id of the effect. -/
  effectId : String
  /-- The column it applies to. -/
  x : Option Int64
  /-- The row it applies to. -/
  y : Option Int64
  /-- How long it is put off. -/
  delay : Option Int64
  /-- Its texts; only the first two are used. -/
  strings : List String
  /-- Its numbers; only the first two are used. -/
  floats : List Binary64
  /-- Its truth values; only the first two are used. -/
  bools : List Bool

namespace TriggerEffect

/-- An optional integer as a property. -/
def coordinate (key : String) (n : Option Int64) : List (String × Value) :=
  n.toList.map fun n => (key, .int n)

/-- The record of the effect. -/
def build (e : TriggerEffect) : Record where
  typeName := "GlobalTriggerEffect"
  identity := .inherited
  properties := .ofList <|
    ("effectID", .str e.effectId) :: coordinate "xValue" e.x ++ coordinate "yValue" e.y
      ++ coordinate "delay" e.delay
      ++ ["sValue", "sValue2"].zip (e.strings.map Value.str)
      ++ ["fValue", "fValue2"].zip (e.floats.map Value.float)
      ++ ["bValue1", "bValue2"].zip (e.bools.map Value.bool)
  subrecords := []

end TriggerEffect

/-- A draft of a global trigger. -/
structure GlobalTrigger where
  /-- The id of the trigger, which is also its alias. -/
  aliasId : String
  /-- The properties set so far. -/
  properties : Properties
  /-- The records of its effects. -/
  effects : List Record

namespace GlobalTrigger

/-- The keys of the corners of the area. -/
def cornerKeys : List String := ["topX", "topY", "btmX", "btmY"]

/-- The record of the trigger. Corners that were not set are at 0. -/
def build (t : GlobalTrigger) : Record where
  typeName := "GlobalTrigger"
  identity := .named t.aliasId
  properties :=
    (cornerKeys.foldl (fun p key => p.setDefault key (.int 0)) t.properties).set "aliasID" t.aliasId
  subrecords := t.effects

end GlobalTrigger
end GameContent
