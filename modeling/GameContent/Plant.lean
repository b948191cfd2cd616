import GameContent.Transition.Compilation
import GameContent.Transition.Expansion

/-!
# `Plant` — plants that grow over several days

The plants of the farming content, each as a graph of growth stages, and their definition in a
context: a comment that names the plant, then the items of its expanded graph.
-/

namespace GameContent

/-- A plant. -/
inductive Plant where
  /-- A root that is smashed into seeds. -/
  | turnip
  /-- A bush that bears fruit as long as it is watered. -/
  | aldleaf
deriving DecidableEq, Repr

namespace Plant

/-- All plants. -/
def all : List Plant := [.turnip, .aldleaf]

/-- The name of a plant. -/
def name : Plant → String
  | .turnip => "turnip"
  | .aldleaf => "aldleaf"

/-- The plant with a name. -/
def ofName? (s : String) : Option Plant :=
  all.find? fun p => p.name = s

/-! ## Growth stages -/

/-- The graph with the given transitions and, for some of its states, properties. -/
def growthGraph (transitions : List (String × String × Transition))
    (states : List (String × List (String × Value))) : Graph :=
  let g := transitions.foldl (fun g (head, tail, t) => g.addTransition head tail t) ∅
  states.foldl (fun g (id, entries) => g.setProperties id (.ofList entries)) g

/-- A daily transition that takes several days. -/
def days (n : Nat) : Transition :=
  { Transition.on .newDay with days := some n }

/-- The same transition with a description while it is under way. -/
def describedBy (template : String) (t : Transition) : Transition :=
  { t with description := some template }

/-- The same transition with something that it spawns. -/
def spawning (item : Value) (t : Transition) : Transition :=
  { t with spawn := some item }

/-- The texture of the crops. -/
def cropsTexture : Value := "rcfox_farming_crops"

/-- The flag of items that stay where they are. -/
def fixed : Value := "cannotBePickedUp"

/-- The flag of items that do not take over the reactions of what they clone. -/
def reactionless : Value := "dontCloneReactions"

/-- The growth of a turnip. -/
def turnipGraph : Graph :=
  growthGraph
    [("turnip", "turnip_seeds",
        spawning (.texts ["turnip_seeds", "turnip_seeds"]) (.on .smash)),
      ("turnip_seeds", "turnip_seeds_watered", .on .water),
      ("turnip_seeds_watered", "turnip_sprout",
        describedBy "It will sprout in \x7bdays\x7d day\x7bs\x7d." (days 3)),
      ("turnip_sprout", "turnip_sprout_watered", .on .water),
      ("turnip_sprout_watered", "turnip_mature",
        describedBy "It will mature in \x7bdays\x7d day\x7bs\x7d." (days 7)),
      ("turnip_mature", "turnip", .on .use)]
    [("turnip",
        [("name", "Turnip"), ("itemCategory", "plant"), ("texture", cropsTexture),
          ("sprite", .int 0)]),
      ("turnip_seeds",
        [("name", "Turnip Seeds"), ("itemCategory", "plant"), ("texture", cropsTexture),
          ("sprite", .int 5)]),
      ("turnip_seeds_watered",
        [("name", "Turnip Seeds (Watered)"), ("itemCategory", "hide"),
          ("cloneFrom", "turnip_seeds"), ("special", .list [reactionless, fixed])]),
      ("turnip_sprout",
        [("name", "Turnip Sprout"), ("itemCategory", "plant"), ("texture", cropsTexture),
          ("sprite", .int 2), ("special", fixed)]),
      ("turnip_sprout_watered",
        [("name", "Turnip Sprout (watered)"), ("itemCategory", "hide"),
          ("cloneFrom", "turnip_sprout"), ("special", .list [reactionless, fixed])]),
      ("turnip_mature",
        [("name", "Turnip (mature)"), ("itemCategory", "plant"), ("texture", cropsTexture),
          ("sprite", .int 1), ("special", fixed)])]

/-- The growth of an aldleaf. -/
def aldleafGraph : Graph :=
  growthGraph
    [("aldleaf", "aldleafSeeds", .on .smash),
      ("aldleafSeeds", "aldleafSeeds_watered", .on .water),
      ("aldleafSeeds_watered", "aldleafSprout", .on .newDay),
      ("aldleafSeeds", "aldleafSprout", .on .growth),
      ("aldleafSprout", "aldleafPlant_deadend", .on .growth),
      ("aldleafSprout", "aldleafPlant",
        (describedBy "It will develop leaves in \x7bdays\x7d day\x7bs\x7d." (days 3)).redirect
          .growth "aldleafPlant_deadend"),
      ("aldleafPlant", "aldleafPlant_watered", .on .water),
      ("aldleafPlant_watered", "aldleafBush",
        (describedBy "It will mature in \x7bdays\x7d day\x7bs\x7d." (days 7)).redirect
          .slash "aldleaf"),
      ("aldleafBush", "aldleafBush_watered", .on .water),
      ("aldleafBush_watered", "aldleafBush",
        spawning "sleep_fruit"
          (describedBy "It will produce fruit in \x7bdays\x7d day\x7bs\x7d." (days 7))),
      ("aldleafPlant", "aldleafPlant_wither",
        ((days 7).redirect .water "aldleafPlant_watered").redirect .growth "aldleafPlant"),
      ("aldleafBush", "aldleafBush_wither",
        ((days 7).redirect .water "aldleafBush_watered").redirect .growth "aldleafBush"),
      ("aldleafPlant_wither", "aldleafPlant", .on .growth),
      ("aldleafBush_wither", "aldleafBush", .on .growth)]
    [("aldleaf", [("cloneFrom", "aldleaf")]),
      ("aldleafSeeds",
        [("name", "Aldleaf Seeds"), ("itemCategory", "plant"), ("sprite", .int 483),
          ("description", "Seeds!")]),
      ("aldleafSeeds_watered",
        [("name", "Aldleaf Seeds (Watered)"), ("itemCategory", "hide"),
          ("cloneFrom", "aldleafSeeds"), ("special", .list [reactionless, fixed])]),
      ("aldleafSprout",
        [("name", "Aldleaf Sprout"), ("itemCategory", "plant"), ("sprite", .int 556),
          ("description", "It will develop leaves in 3 day."), ("special", fixed)]),
      ("aldleafPlant",
        [("cloneFrom", "aldleafPlant"), ("special", reactionless),
          ("description", "It will mature in 7 days if watered.")]),
      ("aldleafPlant_deadend", [("cloneFrom", "aldleafPlant"), ("special", reactionless)]),
      ("aldleafPlant_wither", [("cloneFrom", "aldleafPlant_wither"), ("special", reactionless)]),
      ("aldleafPlant_watered",
        [("name", "Aldleaf Plant (Watered)"), ("itemCategory", "hide"),
          ("cloneFrom", "aldleafPlant"), ("special", reactionless),
          ("description", "It will mature in 7 days.")]),
      ("aldleafBush",
        [("cloneFrom", "aldleafBush"), ("special", reactionless),
          ("description", "It will produce fruit in 7 days if watered.")]),
      ("aldleafBush_wither", [("cloneFrom", "aldleafBush_wither"), ("special", reactionless)]),
      ("aldleafBush_watered",
        [("name", "Aldleaf Bush (Watered)"), ("itemCategory", "hide"),
          ("cloneFrom", "aldleafBush"), ("special", reactionless),
          ("description", "It will produce fruit in 7 days.")])]

/-- The growth stages of a plant, its delays not yet expanded. -/
def graph : Plant → Graph
  | .turnip => turnipGraph
  | .aldleaf => aldleafGraph

/-! ## Definition -/

/-- Defines a plant in the innermost collection, and answers how many items it has. -/
def define (scheme : IdScheme) (p : Plant) (ctx : Context) : Except GraphError Nat × Context :=
  match p.graph.expand scheme with
  | .error e => (.error e, ctx)
  | .ok g =>
    let ctx := (ctx.append? (.comment (p.name ++ " growth stages"))).getD ctx
    let (outcome, ctx) := g.compile Graph.defaultSentinel ctx
    (outcome.map List.length, ctx)

/-- Defines several plants in order, and answers how many items they have together. -/
def defineAll (scheme : IdScheme) : List Plant → Context → Except GraphError Nat × Context
  | [], ctx => (.ok 0, ctx)
  | p :: ps, ctx =>
    match p.define scheme ctx with
    | (.error e, ctx) => (.error e, ctx)
    | (.ok count, ctx) =>
      let (outcome, ctx) := defineAll scheme ps ctx
      (outcome.map (count + ·), ctx)

end Plant
end GameContent
