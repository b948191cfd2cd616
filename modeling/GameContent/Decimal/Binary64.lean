/-!
# `Decimal.Binary64` — double-precision numbers, exactly

A number of the double-precision format is a NaN, a signed infinity, or a sign with a magnitude
`mantissa * 2 ^ exponent / 2 ^ 1074`. The invariant of `Magnitude` makes the representation unique,
so equality of representations is equality of numbers (both zeros and the one NaN included).

Correct rounding is integer arithmetic: `Magnitude.ofRatio?` scales the quotient to units of
`2 ^ -1074`, finds the exponent from the binary logarithm and rounds once, ties to even.
-/

namespace GameContent

/-- Powers of natural numbers. Modules that form them name this instance, and the type of a literal
    exponent, so that a power is the same whatever else is imported. -/
@[reducible] def natPow : Pow Nat Nat := instPowNat

attribute [local instance] natPow

/-- The integer nearest to `num / den`; a quotient halfway between two integers goes to the even
    one. -/
def roundDiv (num den : Nat) : Nat :=
  if 2 * (num % den) < den ∨ (2 * (num % den) = den ∧ num / den % 2 = 0) then num / den
  else num / den + 1

theorem le_roundDiv (num den : Nat) : num / den ≤ roundDiv num den := by
  unfold roundDiv
  split <;> omega

/-- The magnitude of a finite number: `mantissa * 2 ^ exponent / 2 ^ 1074`. -/
structure Magnitude where
  /-- The significant bits. -/
  mantissa : Nat
  /-- The exponent of the last significant bit, counted from the least one of the format. -/
  exponent : Nat
  /-- There are at most 53 significant bits. -/
  mantissa_lt : mantissa < 2 ^ (53 : Nat)
  /-- The exponent is at most the greatest one of the format. -/
  exponent_le : exponent ≤ 2045
  /-- All 53 bits are in use, except among the numbers with the least exponent. -/
  full : exponent = 0 ∨ 2 ^ (52 : Nat) ≤ mantissa
deriving DecidableEq, Repr

namespace Magnitude

/-- The magnitude zero. -/
def zero : Magnitude where
  mantissa := 0
  exponent := 0
  mantissa_lt := by decide
  exponent_le := by decide
  full := .inl rfl

instance : Inhabited Magnitude := ⟨zero⟩

/-- The magnitude in units of `2 ^ -1074`, the least positive one. -/
def units (x : Magnitude) : Nat :=
  x.mantissa * 2 ^ x.exponent

/-- The exponent of the last of 53 significant bits of `n`, or `0` if `n` has fewer bits. -/
def exponentOf (n : Nat) : Nat :=
  n.log2 - 52

theorem two_pow_le_div_of_exponentOf_pos {n : Nat} (h : exponentOf n ≠ 0) :
    2 ^ (52 : Nat) ≤ n / 2 ^ exponentOf n := by
  unfold exponentOf at h
  have hn : n ≠ 0 := by
    intro h0
    subst h0
    simp at h
  rw [Nat.le_div_iff_mul_le (Nat.two_pow_pos _), ← Nat.pow_add]
  have he : 52 + exponentOf n = n.log2 := by
    unfold exponentOf
    omega
  rw [he]
  exact Nat.log2_self_le hn

/-- The magnitude nearest to `num / den`, ties to even, or `none` if that is infinite. -/
def ofRatio? (num den : Nat) : Option Magnitude :=
  let e := exponentOf (num * 2 ^ (1074 : Nat) / den)
  let m := roundDiv (num * 2 ^ (1074 : Nat)) (den * 2 ^ e)
  if hm : m < 2 ^ (53 : Nat) then
    if he : e ≤ 2045 then
      some {
        mantissa := m
        exponent := e
        mantissa_lt := hm
        exponent_le := he
        full := by
          by_cases h : e = 0
          · exact .inl h
          · refine .inr (Nat.le_trans ?_ (le_roundDiv _ _))
            rw [← Nat.div_div_eq_div_mul]
            exact two_pow_le_div_of_exponentOf_pos h }
    else none
  else
    -- Rounding up carried into a new leading bit: the result is a power of two.
    if he : e + 1 ≤ 2045 then
      some {
        mantissa := 2 ^ (52 : Nat)
        exponent := e + 1
        mantissa_lt := by decide
        exponent_le := he
        full := .inr (Nat.le_refl _) }
    else none

end Magnitude

/-- A double-precision number. -/
inductive Binary64 where
  /-- Not a number. -/
  | nan
  /-- An infinity. -/
  | infinite (negative : Bool)
  /-- A finite number, by its sign and its magnitude. -/
  | finite (negative : Bool) (magnitude : Magnitude)
deriving DecidableEq, Repr

namespace Binary64

instance : Inhabited Binary64 := ⟨.finite false .zero⟩

/-- The number nearest to `num / den`, or an infinity if the quotient is too large. -/
def ofRatio (negative : Bool) (num den : Nat) : Binary64 :=
  match Magnitude.ofRatio? num den with
  | some x => .finite negative x
  | none => .infinite negative

/-- Numerical equality: NaN differs from itself, and the two zeros are equal. -/
def equals : Binary64 → Binary64 → Bool
  | .nan, _ => false
  | _, .nan => false
  | .infinite s, .infinite t => s == t
  | .finite s x, .finite t y => x == y && (s == t || x == .zero)
  | _, _ => false

end Binary64
end GameContent
