import GameContent.Context
import GameContent.Entity.ItemType
import GameContent.Value.Rendering

/-!
# `Recipe` — combining items

A recipe combines a base item with a material to make a result. Its material is declared again as an
item that knows the combination. If the result can be combined back, with any of the `reverse`
partners, that is written onto the record of the result, as three lists whose entries belong
together by position.

## Contents
- `derived` is the item declared for a material.
- `Reversal` is a row of the three lists; `wire` writes the rows of a result onto its record.
- `finalize` registers every derived item and then wires every result.
-/

namespace GameContent

/-- A way of combining two items. -/
structure Recipe where
  /-- The item that the material is combined with. -/
  base : RecordRef
  /-- The id of the material. -/
  material : String
  /-- The item that is made. -/
  result : RecordRef
  /-- Whether the combination uses the material up. -/
  consume : Bool
  /-- The items that the result can be combined with to get the material back. -/
  reverse : List String
deriving DecidableEq, Repr

/-- Recipes in the order in which they were declared. -/
abbrev RecipeBook := List Recipe

namespace Recipe

/-- The item that is declared for the material of a recipe. -/
def derived (r : Recipe) : Record :=
  ((ItemType.item r.material).withProperties <| .ofList
    [("cloneFrom", r.material), ("combineWith", r.base), ("toMake", r.result),
      ("consumeOnCombine", r.consume)]).build

/-- One way of combining a result back: with a partner, to get a material. -/
structure Reversal where
  /-- The item to combine with. -/
  partner : String
  /-- The material that comes back. -/
  material : String
  /-- Whether the combination uses the result up. -/
  consume : Bool
deriving DecidableEq, Repr

/-- The reversals of a recipe, one for each partner. -/
def reversals (r : Recipe) : List Reversal :=
  r.reverse.map fun partner => ⟨partner, r.material, r.consume⟩

/-- The texts of the values that a record has under a key already. -/
def existing (p : Properties) (key : String) : List String :=
  (p.get? key).elim [] Value.scalarTexts

/-- The properties of a result with the list under each of the three keys extended by an entry for
    each reversal. -/
def wire (rows : List Reversal) (p : Properties) : Properties :=
  let joined (key : String) (entries : List String) : Value :=
    .str (",".intercalate (existing p key ++ entries))
  ((p.set "!combineWith" (joined "combineWith" (rows.map Reversal.partner))).set
    "!toMake" (joined "toMake" (rows.map Reversal.material))).set
    "!consumeOnCombine" (joined "consumeOnCombine" (rows.map fun row => boolText row.consume))

end Recipe

namespace RecipeBook

/-- The results of the recipes with partners, each once, in the order of their first recipe. -/
def reversibleResults (book : RecipeBook) : List RecordRef :=
  ((book.filter fun r => !r.reverse.isEmpty).map Recipe.result).foldl
    (fun seen r => if r ∈ seen then seen else seen ++ [r]) []

/-- The reversals of all recipes with a result. -/
def reversalsOf (book : RecipeBook) (result : RecordRef) : List Recipe.Reversal :=
  (book.filter fun r => r.result = result).flatMap Recipe.reversals

/-- Wires the given results in order and stops at the first one that has no record. -/
def wireAll (book : RecipeBook) : List RecordRef → Context → Except RecordError Unit × Context
  | [], ctx => (.ok (), ctx)
  | result :: results, ctx =>
    let rows := book.reversalsOf result
    let change (r : Record) : Record := { r with properties := Recipe.wire rows r.properties }
    match ctx.updateRecord? result.id change with
    | none => (.error (.unknownRecord result.id), ctx)
    | some ctx => wireAll book results ctx

/-- Registers the derived item of every recipe, then wires every result. What was done before an
    error stays done. -/
def finalize (book : RecipeBook) (ctx : Context) : Except RecordError (List RecordRef) × Context :=
  match ctx.registerAll (book.map Recipe.derived) with
  | (.error e, ctx) => (.error e, ctx)
  | (.ok references, ctx) =>
    let (outcome, ctx) := book.wireAll book.reversibleResults ctx
    (outcome.map fun _ => references, ctx)

end RecipeBook
end GameContent
