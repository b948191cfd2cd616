import GameContent.Decimal.Layout
import GameContent.Value.Basic

/-!
# `Value.Rendering` — the text of a value

This is the text that stands after `key=` in an artifact. Floats are written with the fewest digits
that read back, never with an exponent; below `10 ^ 16` an integral float keeps a `.0`, so that it
reads back as a float.
-/

namespace GameContent

attribute [local instance] natPow

namespace Binary64

/-- Whether a magnitude is an integer below `10 ^ 16`. -/
def isSmallInteger (x : Magnitude) : Bool :=
  x.units % 2 ^ (1074 : Nat) = 0 && x.units < 10 ^ (16 : Nat) * 2 ^ (1074 : Nat)

/-- The digits of a magnitude, with the point. Equally near candidates go up. -/
def magnitudeChars (x : Magnitude) : List Char :=
  (if x.mantissa = 0 then ['0'] else (x.shortest .up).plain)
    ++ if isSmallInteger x then ['.', '0'] else []

/-- The text of a number. -/
def render : Binary64 → List Char
  | .nan => ['N', 'a', 'N']
  | .infinite s => signChars s ++ ['i', 'n', 'f']
  | .finite s x => signChars s ++ magnitudeChars x

end Binary64

/-- The text of a truth value. -/
def boolText (b : Bool) : String :=
  if b then "true" else "false"

namespace Value

mutual

/-- The text of a value. A list is the texts of its items, without the nulls, between commas. -/
def render : Value → String
  | .null => ""
  | .bool b => boolText b
  | .int n => String.ofList (intChars n.toInt)
  | .float x => String.ofList x.render
  | .str s => s
  | .ref r => r.id
  | .list items => ",".intercalate (renderItems items)

/-- The texts of the values that are not null. -/
def renderItems : List Value → List String
  | [] => []
  | v :: vs => if v.isNull then renderItems vs else render v :: renderItems vs

end

/-- The texts of the values that a value writes out. -/
def scalarTexts (v : Value) : List String :=
  v.scalars.map render

theorem renderItems_eq (vs : List Value) :
    renderItems vs = (vs.filter (!·.isNull)).map render := by
  induction vs with
  | nil => simp [renderItems]
  | cons v vs ih => by_cases h : v.isNull = true <;> simp [renderItems, h, ih]

end Value
end GameContent
