import GameContent.Decimal.Layout
import GameContent.Properties
import GameContent.Value.Rendering

/-!
# `Json` — property bags as JSON text

`Value.toJson` and `Properties.toJson` keep the order of properties. Null and the numbers that JSON
cannot write become `null`, references become their ids. `compact` writes a tree without blanks,
`pretty` with one member a line, indented by two.
-/

namespace GameContent

/-- A JSON tree. Objects keep the order of their members. -/
inductive Json where
  /-- `null`. -/
  | null
  /-- `true` or `false`. -/
  | bool (b : Bool)
  /-- A number that is an integer. -/
  | int (n : Int)
  /-- A number that is written in decimal, by its sign and its magnitude. -/
  | float (negative : Bool) (magnitude : Magnitude)
  /-- A string. -/
  | string (s : String)
  /-- An array. -/
  | array (items : List Json)
  /-- An object. -/
  | object (members : List (String × Json))

namespace Json

/-- How one character is written inside a JSON string. -/
def escapedChar (c : Char) : List Char :=
  match c with
  | '"' => ['\\', '"']
  | '\\' => ['\\', '\\']
  | '\x08' => ['\\', 'b']
  | '\x0c' => ['\\', 'f']
  | '\n' => ['\\', 'n']
  | '\r' => ['\\', 'r']
  | '\t' => ['\\', 't']
  | c => if c.toNat < 0x20 then '\\' :: 'u' :: hexDigits 4 c.toNat else [c]

/-- A JSON string. -/
def quote (s : String) : String :=
  String.ofList ('"' :: s.toList.flatMap escapedChar ++ ['"'])

/-- Writes a decimal positionally when its leading digit counts `10 ^ -5` to `10 ^ 15`, with at
    least one digit after the point, and otherwise with an exponent. -/
def decimalChars (d : Decimal) : List Char :=
  if -5 ≤ d.leading ∧ d.leading ≤ 15 then
    d.plain ++ if 0 ≤ d.exponent then ['.', '0'] else []
  else d.scientific

/-- A number by its sign and its magnitude. Equally near candidates go to the even digit. -/
def floatText (negative : Bool) (x : Magnitude) : String :=
  String.ofList (signChars negative ++
    if x.mantissa = 0 then ['0', '.', '0'] else decimalChars (x.shortest .even))

mutual

/-- The tree without any blanks. -/
def compact : Json → String
  | .null => "null"
  | .bool b => boolText b
  | .int n => String.ofList (intChars n)
  | .float s x => floatText s x
  | .string s => quote s
  | .array items => "[" ++ ",".intercalate (compactItems items) ++ "]"
  | .object members => "\x7b" ++ ",".intercalate (compactMembers members) ++ "\x7d"

/-- The texts of the items of an array. -/
def compactItems : List Json → List String
  | [] => []
  | j :: js => compact j :: compactItems js

/-- The texts of the members of an object. -/
def compactMembers : List (String × Json) → List String
  | [] => []
  | (key, j) :: ms => (quote key ++ ":" ++ compact j) :: compactMembers ms

end

/-- A bracketed block with its lines between the brackets, or just the brackets if there are no
    lines. The lines carry their own indentation; `depth` is that of the closing bracket. -/
def block (depth : Nat) (opening closing : String) : List String → String
  | [] => opening ++ closing
  | lines =>
    let indent := String.ofList (List.replicate (2 * depth) ' ')
    opening ++ "\n" ++ ",\n".intercalate lines ++ "\n" ++ indent ++ closing

mutual

/-- The tree with one item or member a line, where `depth` blocks are open around it. -/
def prettyAt (depth : Nat) : Json → String
  | .array items => block depth "[" "]" (prettyItems (depth + 1) items)
  | .object members => block depth "\x7b" "\x7d" (prettyMembers (depth + 1) members)
  | .null => "null"
  | .bool b => boolText b
  | .int n => String.ofList (intChars n)
  | .float s x => floatText s x
  | .string s => quote s

/-- The indented lines of the items of an array. -/
def prettyItems (depth : Nat) : List Json → List String
  | [] => []
  | j :: js =>
    (String.ofList (List.replicate (2 * depth) ' ') ++ prettyAt depth j) :: prettyItems depth js

/-- The indented lines of the members of an object. -/
def prettyMembers (depth : Nat) : List (String × Json) → List String
  | [] => []
  | (key, j) :: ms =>
    (String.ofList (List.replicate (2 * depth) ' ') ++ quote key ++ ": " ++ prettyAt depth j)
      :: prettyMembers depth ms

end

/-- The tree with one item or member a line. -/
def pretty (j : Json) : String :=
  j.prettyAt 0

end Json

/-! ## Values and property bags -/

mutual

/-- A value as JSON. -/
def Value.toJson : Value → Json
  | .null => .null
  | .bool b => .bool b
  | .int n => .int n.toInt
  | .float (.finite s x) => .float s x
  | .float _ => .null
  | .str s => .string s
  | .ref r => .string r.id
  | .list items => .array (Value.itemsToJson items)

/-- The items of a list as JSON. -/
def Value.itemsToJson : List Value → List Json
  | [] => []
  | v :: vs => v.toJson :: itemsToJson vs

end

/-- A property bag as a JSON object. -/
def Properties.toJson (p : Properties) : Json :=
  .object (p.entries.map fun e => (e.1, e.2.toJson))

end GameContent
