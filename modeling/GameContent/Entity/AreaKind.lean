/-!
# `Entity.AreaKind` — the two kinds of areas of effect

An area of effect belongs to an action or to an affecter of attribute values. The kind decides the
type name of its record and where the record may stand.
-/

namespace GameContent

/-- Which kind of record an area of effect belongs to. -/
inductive AreaKind where
  /-- The area of an action. -/
  | action
  /-- The area of an attribute affecter. -/
  | affecter
deriving DecidableEq, Repr

namespace AreaKind

/-- The name of the kind. -/
def name : AreaKind → String
  | .action => "Action"
  | .affecter => "AvAffecter"

/-- The type name of an area record of the kind. -/
def typeName : AreaKind → String
  | .action => "ActionAOE"
  | .affecter => "AvAffecterAOE"

end AreaKind

end GameContent
