import GameContent.Decimal.Binary64
import GameContent.Identity

/-!
# `Value.Basic` — property values

A property holds nothing, a scalar, or a list. The views (`text?`, `bool?`, …) answer only for
values of their kind; `agrees` compares values the way numbers compare, so it is not reflexive at
NaN.
-/

namespace GameContent

/-- The value of a property. -/
inductive Value where
  /-- No value. It is never written out. -/
  | null
  /-- A truth value. -/
  | bool (b : Bool)
  /-- An integer of 64 signed bits. -/
  | int (n : Int64)
  /-- A double-precision number. -/
  | float (x : Binary64)
  /-- A text. -/
  | str (s : String)
  /-- A reference to a named record. -/
  | ref (target : RecordRef)
  /-- Several values under one key. -/
  | list (items : List Value)

namespace Value

instance : Inhabited Value := ⟨.null⟩

instance : Coe String Value := ⟨.str⟩

instance : Coe Bool Value := ⟨.bool⟩

instance : Coe Int64 Value := ⟨.int⟩

instance : Coe RecordRef Value := ⟨.ref⟩

/-- A list of texts. -/
def texts (ss : List String) : Value :=
  .list (ss.map .str)

/-- The value of an optional thing: null when there is none. -/
def ofOption {α : Type} (f : α → Value) : Option α → Value
  | some a => f a
  | none => .null

/-! ## Views -/

/-- Whether the value is null. -/
def isNull : Value → Bool
  | .null => true
  | _ => false

/-- The text of a string, or the id of a reference. -/
def text? : Value → Option String
  | .str s => some s
  | .ref r => some r.id
  | _ => none

/-- The truth value, if it is one. -/
def bool? : Value → Option Bool
  | .bool b => some b
  | _ => none

/-- The integer, if it is one. -/
def int? : Value → Option Int64
  | .int n => some n
  | _ => none

/-- The double-precision number, if it is one. -/
def float? : Value → Option Binary64
  | .float x => some x
  | _ => none

/-- The items, if the value is a list. -/
def list? : Value → Option (List Value)
  | .list items => some items
  | _ => none

/-- The value in list shape: a list as it is, anything else as the only item. -/
def toList : Value → List Value
  | .list items => items
  | v => [v]

/-- The values that are written out, each on a line of its own: the items of a list or the value
    itself, without the nulls. -/
def scalars : Value → List Value
  | .null => []
  | .list items => items.filter (!·.isNull)
  | v => [v]

@[simp] theorem list?_list (items : List Value) : (list items).list? = some items := rfl

@[simp] theorem toList_list (items : List Value) : (list items).toList = items := rfl

@[simp] theorem scalars_null : scalars null = [] := rfl

@[simp] theorem scalars_list (items : List Value) :
    (list items).scalars = items.filter (!·.isNull) := rfl

/-! ## Comparison -/

mutual

/-- Whether two values are the same, with numbers compared as numbers: NaN differs from itself and
    the two zeros are equal. Values of different kinds always differ. -/
def agrees : Value → Value → Bool
  | .null, .null => true
  | .bool a, .bool b => a == b
  | .int m, .int n => m == n
  | .float x, .float y => x.equals y
  | .str s, .str t => s == t
  | .ref r, .ref s => r == s
  | .list us, .list vs => agreesAll us vs
  | _, _ => false

/-- Whether two lists of values agree item by item. -/
def agreesAll : List Value → List Value → Bool
  | [], [] => true
  | u :: us, v :: vs => agrees u v && agreesAll us vs
  | _, _ => false

end

end Value
end GameContent
