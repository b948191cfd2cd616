import GameContent.Decimal.Numeral

/-!
# `Decimal.Shortest` — the fewest digits that read back

`Magnitude.shortest` gives a decimal with as few digits as possible among those that round to the
magnitude, and of those with that many digits the nearest one. The search tries the two neighbours
of the magnitude on ever finer decimal grids; the test of a candidate is the reading of `Numeral`
itself. Two candidates can be equally near: `Tie` says which one is taken.
-/

namespace GameContent

attribute [local instance] natPow

/-- Which of two equally near candidates is taken. -/
inductive Tie where
  /-- The larger one. -/
  | up
  /-- The one with the even last digit. -/
  | even
deriving DecidableEq, Repr

namespace Decimal

/-- The same decimal without zeros at the end of its digits. -/
def stripZeros (d : Decimal) : Decimal :=
  if h : d.digits ≠ 0 ∧ d.digits % 10 = 0 then
    stripZeros ⟨d.digits / 10, d.exponent + 1⟩
  else d
termination_by d.digits
decreasing_by omega

end Decimal

namespace Magnitude

/-- Whether a decimal rounds to the magnitude. -/
def readsBack (x : Magnitude) (d : Decimal) : Bool :=
  d.toBinary64 false == .finite false x

/-- The magnitude as an exact decimal. -/
def exactDecimal (x : Magnitude) : Decimal :=
  ⟨x.units * 5 ^ (1074 : Nat), -1074⟩

/-- The numerator of the magnitude over the denominator `2 ^ 1074`, in units of `10 ^ -400`: fine
    enough to be a large integer for every positive magnitude. -/
def scaledUnits (x : Magnitude) : Nat :=
  x.units * 10 ^ (400 : Nat)

/-- The exponent `k` of the least power of ten above a positive magnitude. -/
def scale (x : Magnitude) : Int :=
  (Nat.toDigits 10 (x.scaledUnits / 2 ^ (1074 : Nat))).length - 400

/-- The multiple of `10 ^ exponent` that reads back as the magnitude and is nearest to it, if there
    is one. The two candidates are the neighbours of the magnitude on this grid. -/
def nearestAt? (tie : Tie) (x : Magnitude) (exponent : Int) : Option Decimal :=
  let step := 2 ^ (1074 : Nat) * 10 ^ (400 + exponent).toNat
  let below := x.scaledUnits / step
  let rest := x.scaledUnits % step
  let lower : Decimal := ⟨below, exponent⟩
  let upper : Decimal := ⟨below + 1, exponent⟩
  match x.readsBack lower, x.readsBack upper with
  | true, true =>
    let takeUpper := match compare (2 * rest) step with
      | .lt => false
      | .gt => true
      | .eq => match tie with
        | .up => true
        | .even => below % 2 = 1
    some (if takeUpper then upper else lower)
  | true, false => some lower
  | false, true => some upper
  | false, false => none

/-- The shortest decimal that reads back as a positive magnitude: the first hit on the grids of
    one, two, … digits. Seventeen digits are enough for every double-precision number; past them
    the exact value would be taken. -/
def shortest (tie : Tie) (x : Magnitude) : Decimal :=
  let scale := x.scale
  (((List.range 17).findSome? fun (n : Nat) => x.nearestAt? tie (scale - (n + 1))).getD
    x.exactDecimal).stripZeros

end Magnitude
end GameContent
