import GameContent.Decimal.Shortest

/-!
# `Decimal.Layout` — how selected digits are written

A decimal is written positionally (`plain`) or with an exponent (`scientific`). Which of the two a
number gets is a decision of the format that prints it.
-/

namespace GameContent
namespace Decimal

/-- The digits of a decimal as characters. -/
def digitChars (d : Decimal) : List Char :=
  Nat.toDigits 10 d.digits

/-- The exponent of the leading digit: the decimal is `d.ddd * 10 ^ leading`. -/
def leading (d : Decimal) : Int :=
  d.scale - 1

/-- The digits with a decimal point at its place; a decimal that is an integer gets no point. -/
def plain (d : Decimal) : List Char :=
  if 0 ≤ d.exponent then d.digitChars ++ List.replicate d.exponent.toNat '0'
  else if 0 < d.scale then
    d.digitChars.take d.scale.toNat ++ '.' :: d.digitChars.drop d.scale.toNat
  else '0' :: '.' :: List.replicate (-d.scale).toNat '0' ++ d.digitChars

/-- The digits with a point after the first one, if there are more, and a signed exponent. -/
def scientific (d : Decimal) : List Char :=
  let mantissa := match d.digitChars with
    | [] => []
    | [c] => [c]
    | c :: cs => c :: '.' :: cs
  let exponent := Nat.toDigits 10 d.leading.natAbs
  mantissa ++ 'e' :: (if d.leading < 0 then '-' else '+') :: exponent

end Decimal

/-- The sign of a number that is written out. -/
def signChars (negative : Bool) : List Char :=
  if negative then ['-'] else []

/-- The decimal text of an integer. -/
def intChars (n : Int) : List Char :=
  signChars (n < 0) ++ Nat.toDigits 10 n.natAbs

end GameContent
