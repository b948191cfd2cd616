import GameContent.Decimal.Binary64

/-!
# `Decimal.Numeral` — reading numbers from text

The grammars of the two kinds of numeral, and the numbers they denote.

## Contents
- `readInteger?` reads an optional sign and decimal digits.
- `Decimal` is an exact decimal `digits * 10 ^ exponent`; `Decimal.toBinary64` rounds it once.
- `readDecimal?` reads digits with an optional point and an optional exponent.
- `Binary64.read?` reads a signed decimal, or the name of an infinity or of NaN.
-/

namespace GameContent

attribute [local instance] natPow

/-- Splits a text into its longest beginning of decimal digits and the rest. -/
def splitDigits (cs : List Char) : List Char × List Char :=
  (cs.takeWhile Char.isDigit, cs.dropWhile Char.isDigit)

/-- The number that decimal digits denote. -/
def digitsValue (cs : List Char) : Nat :=
  Nat.ofDigitChars 10 cs 0

/-- Splits off an optional sign: whether it was a minus, and the rest. -/
def splitSign : List Char → Bool × List Char
  | '+' :: cs => (false, cs)
  | '-' :: cs => (true, cs)
  | cs => (false, cs)

/-- The integer with the given sign and magnitude. -/
def signedInt (negative : Bool) (n : Nat) : Int :=
  if negative then -(n : Int) else n

/-- Reads decimal digits, at least one and nothing else. -/
def readDigits? (cs : List Char) : Option Nat :=
  if !cs.isEmpty && cs.all Char.isDigit then some (digitsValue cs) else none

/-- Reads an integer: an optional sign and decimal digits. -/
def readInteger? (cs : List Char) : Option Int :=
  let (negative, ds) := splitSign cs
  (readDigits? ds).map (signedInt negative)

/-- Reads an integer that fits 64 signed bits. -/
def readInt64? (cs : List Char) : Option Int64 :=
  match readInteger? cs with
  | some n =>
    if Int64.minValue.toInt ≤ n ∧ n ≤ Int64.maxValue.toInt then some (Int64.ofInt n) else none
  | none => none

/-- An exact decimal, `digits * 10 ^ exponent`. -/
structure Decimal where
  /-- The digits, read as one number. -/
  digits : Nat
  /-- The power of ten that the last digit counts. -/
  exponent : Int
deriving DecidableEq, Repr

namespace Decimal

/-- The exponent of the power of ten just above the leading digit: a positive decimal lies between
    `10 ^ (scale - 1)` and `10 ^ scale`. -/
def scale (d : Decimal) : Int :=
  (Nat.toDigits 10 d.digits).length + d.exponent

/-- The number nearest to a decimal. A decimal whose scale is out of the format's reach is decided
    by the scale alone, so no large power of ten is formed for it. -/
def toBinary64 (negative : Bool) (d : Decimal) : Binary64 :=
  if d.digits = 0 then .finite negative .zero
  else if 310 < d.scale then .infinite negative
  else if d.scale < -330 then .finite negative .zero
  else .ofRatio negative (d.digits * 10 ^ d.exponent.toNat) (10 ^ (-d.exponent).toNat)

end Decimal

/-- Reads the exponent part of a decimal numeral: nothing, or `e` and an integer. -/
def readExponent? : List Char → Option Int
  | [] => some 0
  | c :: cs => if c = 'e' ∨ c = 'E' then readInteger? cs else none

/-- Reads a decimal without sign: digits with an optional point, at least one digit in all, and an
    optional exponent. -/
def readDecimal? (cs : List Char) : Option Decimal :=
  let (whole, rest) := splitDigits cs
  let (fraction, rest) :=
    match rest with
    | '.' :: rest => splitDigits rest
    | rest => ([], rest)
  if whole.isEmpty && fraction.isEmpty then none
  else (readExponent? rest).map fun e => ⟨digitsValue (whole ++ fraction), e - fraction.length⟩

/-- Reads a number without sign; the names of the infinity and of NaN may be in any case. -/
def Binary64.readUnsigned? (negative : Bool) (cs : List Char) : Option Binary64 :=
  let name := cs.map Char.toLower
  if name = ['i', 'n', 'f'] ∨ name = ['i', 'n', 'f', 'i', 'n', 'i', 't', 'y'] then
    some (.infinite negative)
  else if name = ['n', 'a', 'n'] then some .nan
  else (readDecimal? cs).map (Decimal.toBinary64 negative)

/-- Reads a number with an optional sign. -/
def Binary64.read? (cs : List Char) : Option Binary64 :=
  let (negative, rest) := splitSign cs
  Binary64.readUnsigned? negative rest

end GameContent
