import GameContent.Decimal.Numeral
import Mathlib.Tactic.Ring
import Mathlib.Tactic.Linarith

/-!
# `Proofs.Decimal.Rounding` — rounding as a function of the quotient

`Magnitude.ofRatio?` rounds a quotient that is given by a numerator and a denominator. Here the
outcome is counted in units of `2 ^ -1074` (`Magnitude.roundUnits`), where nothing is cut off above:
the rounding depends on the quotient only, does not decrease where the quotient grows, and leaves
every magnitude as it is.

## Contents
- **Integers.** `roundDiv`, the rounding of a quotient to an integer.
- **Units.** `roundUnits_mono`, `roundUnits_congr`, `roundUnits_units` and `dvd_roundUnits_one`.
- **Magnitudes.** `ofRatio?_eq_some_iff`: the magnitude that is found has just these units.
- **Decimals.** `Decimal.toBinary64_eq_ofRatio`: reading a decimal is rounding its quotient, the
  decisions by the scale included.
-/

namespace GameContent

attribute [local instance] natPow

/-! Powers are compared with the instance that the model names; matched against the library's own,
a literal exponent would be evaluated. -/

theorem two_pow_pos (a : Nat) : 0 < 2 ^ a := Nat.two_pow_pos a

theorem ten_pow_pos (a : Nat) : 0 < 10 ^ a := Nat.pow_pos (by decide)

theorem two_pow_le_two_pow {a b : Nat} (h : a ≤ b) : 2 ^ a ≤ 2 ^ b :=
  Nat.pow_le_pow_right (by decide) h

/-! ## Integers -/

theorem roundDiv_le (num den : Nat) : roundDiv num den ≤ num / den + 1 := by
  unfold roundDiv
  split <;> omega

theorem roundDiv_mono {a b : Nat} (h : a ≤ b) (den : Nat) : roundDiv a den ≤ roundDiv b den := by
  rcases Nat.lt_or_eq_of_le (Nat.div_le_div_right (c := den) h) with hlt | heq
  · exact (roundDiv_le a den).trans (Nat.le_trans hlt (le_roundDiv b den))
  · have hmod : a % den ≤ b % den := by
      have ha := Nat.div_add_mod a den
      have hb := Nat.div_add_mod b den
      rw [heq] at ha
      omega
    unfold roundDiv
    rw [heq]
    split <;> split <;> omega

theorem roundDiv_mul_left {k : Nat} (hk : 0 < k) (num den : Nat) :
    roundDiv (k * num) (k * den) = roundDiv num den := by
  have hlt : 2 * (k * (num % den)) < k * den ↔ 2 * (num % den) < den := by
    rw [Nat.mul_left_comm, Nat.mul_lt_mul_left hk]
  have heq : 2 * (k * (num % den)) = k * den ↔ 2 * (num % den) = den := by
    rw [Nat.mul_left_comm, Nat.mul_right_inj (Nat.ne_of_gt hk)]
  unfold roundDiv
  simp only [Nat.mul_div_mul_left _ _ hk, Nat.mul_mod_mul_left, hlt, heq]

/-- A quotient without a rest is not rounded. -/
theorem roundDiv_mul_self {den : Nat} (hden : 0 < den) (q : Nat) : roundDiv (q * den) den = q := by
  unfold roundDiv
  rw [Nat.mul_mod_left, if_pos (.inl hden), Nat.mul_div_cancel q hden]

namespace Magnitude

/-! ## The exponent of the last bit -/

theorem exponentOf_mono {a b : Nat} (h : a ≤ b) : exponentOf a ≤ exponentOf b := by
  unfold exponentOf
  have hlog : a.log2 ≤ b.log2 := by
    by_cases ha : a = 0
    · subst ha
      simp
    · exact (Nat.le_log2 (by omega)).2 ((Nat.log2_self_le ha).trans h)
  omega

theorem lt_two_pow_exponentOf (n : Nat) : n < 2 ^ (53 + exponentOf n) := by
  refine Nat.lt_of_lt_of_le Nat.lt_log2_self (two_pow_le_two_pow ?_)
  unfold exponentOf
  omega

theorem two_pow_le_of_exponentOf_pos {n : Nat} (h : exponentOf n ≠ 0) :
    2 ^ (52 + exponentOf n) ≤ n := by
  have hle := two_pow_le_div_of_exponentOf_pos h
  rwa [Nat.le_div_iff_mul_le (two_pow_pos _), ← Nat.pow_add] at hle

theorem exponentOf_eq_zero {n : Nat} (h : n < 2 ^ (53 : Nat)) : exponentOf n = 0 := by
  by_contra hne
  have hle := two_pow_le_of_exponentOf_pos hne
  have hpow : 2 ^ (53 : Nat) ≤ 2 ^ (52 + exponentOf n) :=
    two_pow_le_two_pow (by omega)
  omega

theorem exponentOf_eq {n e : Nat} (hle : 2 ^ (52 + e) ≤ n) (hlt : n < 2 ^ (53 + e)) :
    exponentOf n = e := by
  have hn : n ≠ 0 := by
    have := Nat.two_pow_pos (52 + e)
    omega
  have hlog : n.log2 = 52 + e := by
    have hlow := (Nat.le_log2 hn).2 hle
    have hup := (Nat.log2_lt hn).2 hlt
    omega
  unfold exponentOf
  omega

theorem exponentOf_units (x : Magnitude) : exponentOf x.units = x.exponent := by
  unfold units
  rcases x.full with h | h
  · rw [h, Nat.pow_zero, Nat.mul_one]
    exact exponentOf_eq_zero x.mantissa_lt
  · apply exponentOf_eq
    · rw [Nat.pow_add]
      exact Nat.mul_le_mul_right _ h
    · rw [Nat.pow_add]
      exact Nat.mul_lt_mul_of_pos_right x.mantissa_lt (two_pow_pos _)

/-- A magnitude has no other representation. -/
theorem units_injective {x y : Magnitude} (h : x.units = y.units) : x = y := by
  have he : x.exponent = y.exponent := by rw [← exponentOf_units, h, exponentOf_units]
  have hm : x.mantissa = y.mantissa := by
    unfold units at h
    rw [he] at h
    exact Nat.eq_of_mul_eq_mul_right (two_pow_pos _) h
  cases x
  cases y
  simp only at he hm
  subst he
  subst hm
  rfl

theorem units_lt (x : Magnitude) : x.units < 2 ^ (2098 : Nat) := by
  calc x.units < 2 ^ (53 : Nat) * 2 ^ x.exponent :=
        Nat.mul_lt_mul_of_pos_right x.mantissa_lt (two_pow_pos _)
    _ = 2 ^ (53 + x.exponent) := (Nat.pow_add 2 53 x.exponent).symm
    _ ≤ 2 ^ (2098 : Nat) := two_pow_le_two_pow (Nat.add_le_add_left x.exponent_le 53)

/-! ## Rounding, in units -/

/-- The magnitude nearest to `num / den` in units of `2 ^ -1074`, ties to even, as if there were no
    greatest exponent. -/
def roundUnits (num den : Nat) : Nat :=
  let e := exponentOf (num * 2 ^ (1074 : Nat) / den)
  roundDiv (num * 2 ^ (1074 : Nat)) (den * 2 ^ e) * 2 ^ e

variable {num den : Nat}

theorem roundDiv_le_two_pow (num den : Nat) :
    roundDiv num (den * 2 ^ exponentOf (num / den)) ≤ 2 ^ (53 : Nat) := by
  have hlt : num / den / 2 ^ exponentOf (num / den) < 2 ^ (53 : Nat) := by
    rw [Nat.div_lt_iff_lt_mul (two_pow_pos _), ← Nat.pow_add]
    exact lt_two_pow_exponentOf _
  have hle := roundDiv_le num (den * 2 ^ exponentOf (num / den))
  rw [← Nat.div_div_eq_div_mul] at hle
  omega

theorem two_pow_le_roundDiv (h : exponentOf (num / den) ≠ 0) :
    2 ^ (52 : Nat) ≤ roundDiv num (den * 2 ^ exponentOf (num / den)) := by
  refine Nat.le_trans ?_ (le_roundDiv _ _)
  rw [← Nat.div_div_eq_div_mul]
  exact two_pow_le_div_of_exponentOf_pos h

/-- Within a common denominator, more is not rounded to less. Between two exponents lies a power of
    two that neither side crosses. -/
theorem roundUnits_mono_left {a b : Nat} (h : a ≤ b) (den : Nat) :
    roundUnits a den ≤ roundUnits b den := by
  have hscaled : a * 2 ^ (1074 : Nat) ≤ b * 2 ^ (1074 : Nat) := Nat.mul_le_mul_right _ h
  have hexp := exponentOf_mono (Nat.div_le_div_right (c := den) hscaled)
  unfold roundUnits
  dsimp only
  rcases Nat.lt_or_eq_of_le hexp with hlt | heq
  · calc _ ≤ 2 ^ (53 : Nat) * 2 ^ exponentOf (a * 2 ^ (1074 : Nat) / den) :=
          Nat.mul_le_mul_right _ (roundDiv_le_two_pow _ _)
      _ = 2 ^ (53 + exponentOf (a * 2 ^ (1074 : Nat) / den)) := (Nat.pow_add _ _ _).symm
      _ ≤ 2 ^ (52 + exponentOf (b * 2 ^ (1074 : Nat) / den)) :=
          two_pow_le_two_pow (by omega)
      _ = 2 ^ (52 : Nat) * 2 ^ exponentOf (b * 2 ^ (1074 : Nat) / den) := Nat.pow_add _ _ _
      _ ≤ _ := Nat.mul_le_mul_right _ (two_pow_le_roundDiv (by omega))
  · rw [heq]
    exact Nat.mul_le_mul_right _ (roundDiv_mono hscaled _)

theorem roundUnits_mul_left {k : Nat} (hk : 0 < k) (num den : Nat) :
    roundUnits (k * num) (k * den) = roundUnits num den := by
  unfold roundUnits
  simp only [Nat.mul_assoc, Nat.mul_div_mul_left _ _ hk, roundDiv_mul_left hk]

/-- **Rounding is monotone** in the quotient. -/
theorem roundUnits_mono {a b c d : Nat} (hb : 0 < b) (hd : 0 < d) (h : a * d ≤ c * b) :
    roundUnits a b ≤ roundUnits c d := by
  rw [← roundUnits_mul_left hd a b, ← roundUnits_mul_left hb c d, Nat.mul_comm d a,
    Nat.mul_comm b c, Nat.mul_comm d b]
  exact roundUnits_mono_left h _

/-- Equal quotients are rounded equally. -/
theorem roundUnits_congr {a b c d : Nat} (hb : 0 < b) (hd : 0 < d) (h : a * d = c * b) :
    roundUnits a b = roundUnits c d :=
  Nat.le_antisymm (roundUnits_mono hb hd h.le) (roundUnits_mono hd hb h.ge)

/-- A magnitude is not rounded. -/
theorem roundUnits_units (x : Magnitude) : roundUnits x.units (2 ^ (1074 : Nat)) = x.units := by
  have hdiv : x.units * 2 ^ (1074 : Nat) / 2 ^ (1074 : Nat) = x.units := by
    rw [Nat.mul_div_cancel _ (two_pow_pos _)]
  have hround : roundDiv (x.units * 2 ^ (1074 : Nat)) (2 ^ (1074 : Nat) * 2 ^ x.exponent)
      = x.mantissa := by
    rw [Nat.mul_comm x.units, roundDiv_mul_left (two_pow_pos _)]
    exact roundDiv_mul_self (two_pow_pos _) _
  unfold roundUnits
  dsimp only
  rw [hdiv, exponentOf_units, hround]
  rfl

/-- An integer is rounded to an integer. -/
theorem dvd_roundUnits_one (n : Nat) : 2 ^ (1074 : Nat) ∣ roundUnits n 1 := by
  unfold roundUnits
  dsimp only
  rw [Nat.div_one, Nat.one_mul]
  generalize exponentOf (n * 2 ^ (1074 : Nat)) = e
  rcases Nat.le_total e 1074 with he | he
  · -- The unit of the last bit is a fraction of one, so nothing is rounded.
    have hsplit : n * 2 ^ (1074 : Nat) = n * 2 ^ (1074 - e) * 2 ^ e := by
      rw [Nat.mul_assoc, ← Nat.pow_add, Nat.sub_add_cancel he]
    rw [hsplit, roundDiv_mul_self (two_pow_pos _), ← hsplit]
    exact Nat.dvd_mul_left _ _
  · have hdvd : ∀ a : Nat, a ≤ e → 2 ^ a ∣ 2 ^ e := fun a => Nat.pow_dvd_pow 2
    exact Nat.dvd_mul_left_of_dvd (hdvd 1074 he) _

/-! ## Magnitudes -/

theorem roundUnits_eq_of_ofRatio? {x : Magnitude} (h : ofRatio? num den = some x) :
    roundUnits num den = x.units := by
  have hround := roundDiv_le_two_pow (num * 2 ^ (1074 : Nat)) den
  unfold ofRatio? at h
  dsimp only at h
  split at h
  · split at h
    · obtain rfl := Option.some.inj h
      rfl
    · exact absurd h (by simp)
  · next hm =>
    split at h
    · obtain rfl := Option.some.inj h
      have hcarry := Nat.le_antisymm hround (Nat.le_of_not_lt hm)
      unfold roundUnits units
      dsimp only
      rw [hcarry, ← Nat.pow_add, ← Nat.pow_add]
      congr 1
      omega
    · exact absurd h (by simp)

/-- Below `2 ^ 1024` there is a magnitude. -/
theorem exists_of_roundUnits_lt (h : roundUnits num den < 2 ^ (2098 : Nat)) :
    ∃ x, ofRatio? num den = some x := by
  -- A last bit that counts more than the greatest exponent makes the units too many.
  have hbits : ∀ k, 2098 ≤ k + exponentOf (num * 2 ^ (1074 : Nat) / den) →
      2 ^ k ≤ roundDiv (num * 2 ^ (1074 : Nat))
        (den * 2 ^ exponentOf (num * 2 ^ (1074 : Nat) / den)) → False := by
    intro k hk hm
    have hunits := Nat.mul_le_mul_right (2 ^ exponentOf (num * 2 ^ (1074 : Nat) / den)) hm
    rw [← Nat.pow_add] at hunits
    have hpow := two_pow_le_two_pow hk
    exact absurd h (Nat.not_lt.2 (hpow.trans hunits))
  unfold ofRatio?
  dsimp only
  split
  · split
    · exact ⟨_, rfl⟩
    · next he => exact (hbits 52 (by omega) (two_pow_le_roundDiv (by omega))).elim
  · next hm =>
    split
    · exact ⟨_, rfl⟩
    · next he => exact (hbits 53 (by omega) (Nat.le_of_not_lt hm)).elim

/-- **Rounding to a magnitude**: the magnitude is the one of the rounded units, if there is one. -/
theorem ofRatio?_eq_some_iff {x : Magnitude} :
    ofRatio? num den = some x ↔ roundUnits num den = x.units := by
  constructor
  · exact roundUnits_eq_of_ofRatio?
  · intro h
    obtain ⟨y, hy⟩ := exists_of_roundUnits_lt (h.trans_lt x.units_lt)
    obtain rfl := units_injective ((roundUnits_eq_of_ofRatio? hy).symm.trans h)
    exact hy

theorem ofRatio?_eq_none_iff :
    ofRatio? num den = none ↔ ∀ x : Magnitude, roundUnits num den ≠ x.units := by
  simp only [Option.eq_none_iff_forall_ne_some, ne_eq, ofRatio?_eq_some_iff]

end Magnitude

namespace Binary64

open Magnitude

/-! `ofRatio` decides by the outcome of `ofRatio?`. It is opened as a function: applied to its
arguments, the quotient would be evaluated at once, and the large powers of two with it. -/

theorem ofRatio_def : ofRatio = fun negative num den =>
    match Magnitude.ofRatio? num den with
    | some x => .finite negative x
    | none => .infinite negative := by
  delta ofRatio
  rfl

theorem ofRatio_eq_elim (negative : Bool) (num den : Nat) :
    ofRatio negative num den
      = (ofRatio? num den).elim (.infinite negative) (.finite negative) := by
  rw [ofRatio_def]
  beta_reduce
  generalize ofRatio? num den = outcome
  cases outcome with
  | none => rfl
  | some x => rfl

theorem ofRatio_eq_finite_iff {negative : Bool} {num den : Nat} {x : Magnitude} :
    ofRatio negative num den = .finite negative x ↔ roundUnits num den = x.units := by
  rw [← ofRatio?_eq_some_iff, ofRatio_eq_elim]
  generalize ofRatio? num den = outcome
  cases outcome with
  | none => simp
  | some y => simp

/-- Equal quotients are the same number. -/
theorem ofRatio_congr (negative : Bool) {a b c d : Nat} (hb : 0 < b) (hd : 0 < d)
    (h : a * d = c * b) : ofRatio negative a b = ofRatio negative c d := by
  have hsame : ofRatio? a b = ofRatio? c d := by
    refine Option.ext ?_
    intro x
    rw [ofRatio?_eq_some_iff, ofRatio?_eq_some_iff, roundUnits_congr hb hd h]
  rw [ofRatio_eq_elim, ofRatio_eq_elim, hsame]

/-- From `2 ^ 1024` on, a quotient is infinite. -/
theorem ofRatio_eq_infinite (negative : Bool) {num den : Nat} (hden : 0 < den)
    (h : 2 ^ (1024 : Nat) * den ≤ num) : ofRatio negative num den = .infinite negative := by
  have hlimit : roundUnits (2 ^ (1024 : Nat)) 1 = 2 ^ (2098 : Nat) := by decide +kernel
  have hle : roundUnits (2 ^ (1024 : Nat)) 1 ≤ roundUnits num den :=
    roundUnits_mono Nat.one_pos hden (by rwa [Nat.mul_one])
  have hnone : ofRatio? num den = none := by
    refine ofRatio?_eq_none_iff.2 ?_
    intro x hx
    rw [hlimit, hx] at hle
    exact absurd x.units_lt (Nat.not_lt.2 hle)
  rw [ofRatio_eq_elim, hnone]
  rfl

/-- Up to a quarter of the least unit, a quotient is zero. -/
theorem ofRatio_eq_zero (negative : Bool) {num den : Nat} (hden : 0 < den)
    (h : num * 2 ^ (1076 : Nat) ≤ den) : ofRatio negative num den = .finite negative .zero := by
  have hlimit : roundUnits 1 (2 ^ (1076 : Nat)) = 0 := by decide +kernel
  have hle : roundUnits num den ≤ roundUnits 1 (2 ^ (1076 : Nat)) :=
    roundUnits_mono hden (two_pow_pos 1076) (h.trans_eq (Nat.one_mul den).symm)
  rw [ofRatio_eq_finite_iff]
  rw [hlimit] at hle
  exact Nat.le_zero.1 hle

end Binary64

/-! ## Decimals -/

theorem lt_ten_pow_length (n : Nat) : n < 10 ^ (Nat.toDigits 10 n).length :=
  (Nat.length_toDigits_le_iff (by decide) Nat.length_toDigits_pos).1 le_rfl

theorem ten_pow_le_of_length {n : Nat} (hn : n ≠ 0) :
    10 ^ ((Nat.toDigits 10 n).length - 1) ≤ n := by
  rcases Nat.eq_zero_or_pos ((Nat.toDigits 10 n).length - 1) with h | h
  · rw [h, Nat.pow_zero]
    omega
  · refine Nat.not_lt.1 ?_
    rw [← Nat.length_toDigits_le_iff (by decide) h]
    omega

namespace Decimal

/-- A decimal of large scale is large. -/
theorem ten_pow_mul_le (d : Decimal) (hd : d.digits ≠ 0) {k : Nat} (h : k < d.scale) :
    10 ^ k * 10 ^ (-d.exponent).toNat ≤ d.digits * 10 ^ d.exponent.toNat := by
  unfold scale at h
  have hlow := ten_pow_le_of_length hd
  calc 10 ^ k * 10 ^ (-d.exponent).toNat = 10 ^ (k + (-d.exponent).toNat) :=
        (Nat.pow_add _ _ _).symm
    _ ≤ 10 ^ ((Nat.toDigits 10 d.digits).length - 1 + d.exponent.toNat) :=
        Nat.pow_le_pow_right (by decide) (by omega)
    _ = 10 ^ ((Nat.toDigits 10 d.digits).length - 1) * 10 ^ d.exponent.toNat := Nat.pow_add _ _ _
    _ ≤ d.digits * 10 ^ d.exponent.toNat := Nat.mul_le_mul_right _ hlow

/-- A decimal of small scale is small. -/
theorem mul_ten_pow_le (d : Decimal) {k : Nat} (h : d.scale ≤ -k) :
    d.digits * 10 ^ d.exponent.toNat * 10 ^ k ≤ 10 ^ (-d.exponent).toNat := by
  unfold scale at h
  calc d.digits * 10 ^ d.exponent.toNat * 10 ^ k = d.digits * 10 ^ (d.exponent.toNat + k) := by
        rw [Nat.mul_assoc, Nat.pow_add]
    _ ≤ 10 ^ (Nat.toDigits 10 d.digits).length * 10 ^ (d.exponent.toNat + k) :=
        Nat.mul_le_mul_right _ (lt_ten_pow_length d.digits).le
    _ = 10 ^ ((Nat.toDigits 10 d.digits).length + (d.exponent.toNat + k)) :=
        (Nat.pow_add _ _ _).symm
    _ ≤ 10 ^ (-d.exponent).toNat := Nat.pow_le_pow_right (by decide) (by omega)

/-- **Reading a decimal is rounding its quotient.** The decisions by the scale alone agree with the
    rounding that they save. -/
theorem toBinary64_eq_ofRatio (negative : Bool) (d : Decimal) :
    d.toBinary64 negative
      = .ofRatio negative (d.digits * 10 ^ d.exponent.toNat) (10 ^ (-d.exponent).toNat) := by
  have hden : 0 < 10 ^ (-d.exponent).toNat := ten_pow_pos _
  unfold toBinary64
  by_cases hd : d.digits = 0
  · have hzero : d.digits * 10 ^ d.exponent.toNat = 0 := by rw [hd, Nat.zero_mul]
    have hsmall : 0 * 2 ^ (1076 : Nat) ≤ 10 ^ (-d.exponent).toNat := by
      rw [Nat.zero_mul]
      exact hden.le
    rw [if_pos hd, hzero, Binary64.ofRatio_eq_zero negative hden hsmall]
  · rw [if_neg hd]
    by_cases hlarge : 310 < d.scale
    · have hpow : 2 ^ (1024 : Nat) ≤ 10 ^ (310 : Nat) := by decide +kernel
      rw [if_pos hlarge, Binary64.ofRatio_eq_infinite negative hden
        ((Nat.mul_le_mul_right _ hpow).trans (d.ten_pow_mul_le hd hlarge))]
    · rw [if_neg hlarge]
      by_cases hsmall : d.scale < -330
      · have hpow : 2 ^ (1076 : Nat) ≤ 10 ^ (330 : Nat) := by decide +kernel
        rw [if_pos hsmall, Binary64.ofRatio_eq_zero negative hden
          ((Nat.mul_le_mul_left _ hpow).trans (d.mul_ten_pow_le hsmall.le))]
      · rw [if_neg hsmall]

/-- Zeros at the end of the digits can be moved to the exponent. -/
theorem toBinary64_mul_ten_pow (negative : Bool) (n k : Nat) (e : Int) :
    toBinary64 negative ⟨n * 10 ^ k, e⟩ = toBinary64 negative ⟨n, e + k⟩ := by
  rw [toBinary64_eq_ofRatio, toBinary64_eq_ofRatio]
  refine Binary64.ofRatio_congr negative (ten_pow_pos _) (ten_pow_pos _) ?_
  have hexp : k + e.toNat + (-(e + k)).toNat = (e + k).toNat + (-e).toNat := by omega
  calc n * 10 ^ k * 10 ^ e.toNat * 10 ^ (-(e + k)).toNat
        = n * 10 ^ (k + e.toNat + (-(e + k)).toNat) := by rw [Nat.pow_add, Nat.pow_add]; ring
    _ = n * 10 ^ (e + k).toNat * 10 ^ (-e).toNat := by rw [hexp, Nat.pow_add, Nat.mul_assoc]

theorem toBinary64_eq_finite_iff {negative : Bool} {d : Decimal} {x : Magnitude} :
    d.toBinary64 negative = .finite negative x
      ↔ Magnitude.roundUnits (d.digits * 10 ^ d.exponent.toNat) (10 ^ (-d.exponent).toNat)
        = x.units := by
  rw [toBinary64_eq_ofRatio, Binary64.ofRatio_eq_finite_iff]

end Decimal
end GameContent
