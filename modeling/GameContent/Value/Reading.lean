import GameContent.Decimal.Numeral
import GameContent.Text.Blank
import GameContent.Value.Basic

/-!
# `Value.Reading` — the value that a raw text stands for

The raw text of a field is trimmed and then read as the first of these that fits: a truth value in
any case, an integer of 64 bits, a double-precision number, and otherwise the text itself.
-/

namespace GameContent
namespace Value

/-- Reads a truth value, in any case of its ASCII letters. -/
def readBool? (cs : List Char) : Option Bool :=
  let name := cs.map Char.toLower
  if name = ['t', 'r', 'u', 'e'] then some true
  else if name = ['f', 'a', 'l', 's', 'e'] then some false
  else none

/-- The value of a text that has no blanks at its ends. -/
def ofTrimmed (cs : List Char) : Value :=
  match readBool? cs with
  | some b => .bool b
  | none =>
    match readInt64? cs with
    | some n => .int n
    | none =>
      match Binary64.read? cs with
      | some x => .float x
      | none => .str (String.ofList cs)

/-- The value of a raw text. -/
def ofChars (cs : List Char) : Value :=
  ofTrimmed (Text.trim cs)

/-- The value of a raw text. -/
def ofText (s : String) : Value :=
  ofChars s.toList

end Value
end GameContent
