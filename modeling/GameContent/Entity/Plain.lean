import GameContent.Record

/-!
# `Entity.Plain` — records that are just their properties

Reactions belong to an item or an actor and repeat its id; prefabs, detection areas and formulas
have ids of their own.
-/

namespace GameContent

/-- A reaction of an item. -/
def itemReaction (p : Properties) : Record := ⟨"ItemReaction", .inherited, p, []⟩

/-- A reaction of an actor. -/
def actorReaction (p : Properties) : Record := ⟨"ActorTypeReaction", .inherited, p, []⟩

/-- An actor that is placed as it is. -/
def actorPrefab (id : String) (p : Properties) : Record := ⟨"ActorPrefab", .named id, p, []⟩

/-- The area in which an actor notices others. -/
def detectionArea (id : String) (p : Properties) : Record :=
  ⟨"ActorTypeDetectAoE", .named id, p, []⟩

/-- A formula that is known everywhere. -/
def globalFormula (id formula : String) : Record :=
  ⟨"FormulaGlobal", .named id, .ofList [("formula", formula)], []⟩

/-- The ids of the furnaces. -/
def furnaceIds : List String :=
  ["furnace_lit", "furnace2_lit", "furnace_everlit1", "furnace_everlit2"]

end GameContent
