/-!
# `Identity` — how a record is named

A record has an id of its own, borrows the id of the record that owns it, or has none. Other
records point at it by a `RecordRef`. `freshId` forms an id that nobody chose from random bits.
-/

namespace GameContent

/-- How a record is identified. -/
inductive Identity where
  /-- The record never shows an id. -/
  | absent
  /-- The record shows the id of the nearest named record that owns it. -/
  | inherited
  /-- The record has an id of its own. -/
  | named (id : String)
deriving DecidableEq, Repr

namespace Identity

instance : Inhabited Identity := ⟨.inherited⟩

/-- The record's own id, if it has one. -/
def id? : Identity → Option String
  | .named id => some id
  | _ => none

/-- Whether the record has an id of its own. -/
def isNamed (i : Identity) : Bool :=
  i.id?.isSome

/-- A record with an optional id inherits when it has none. -/
def ofOption : Option String → Identity
  | some id => .named id
  | none => .inherited

end Identity

/-- A reference to a named record. -/
structure RecordRef where
  /-- The id of the record. -/
  id : String
deriving DecidableEq, Repr, Inhabited

/-! ## Fresh ids -/

/-- The lowercase hexadecimal digits of `n`, padded with zeros to `width` digits. Digits beyond
    that width are dropped. -/
def hexDigits : (width : Nat) → Nat → List Char
  | 0, _ => []
  | width + 1, n => hexDigits width (n / 16) ++ [Nat.digitChar (n % 16)]

/-- An id made of a stem and 32 hexadecimal digits, of which 122 bits are random. The thirteenth
    digit is the version `4`, and the two leading bits of the seventeenth are `10`. -/
def freshId (stem : String) (random : Nat) : String :=
  let high := hexDigits 12 (random >>> 80)
  let middle := hexDigits 3 (random >>> 64)
  let low := hexDigits 16 (1 <<< 63 + random % 1 <<< 62)
  stem ++ String.ofList (high ++ '4' :: middle ++ low)

end GameContent
