import GameContent.Proofs.Decimal.Shortest
import GameContent.Proofs.Value.Coercion

/-!
# `Proofs.Value.FloatText` — which floats read back from their text

The text of a float is a numeral of it (`Binary64.floatNumeral_render`), since the shortest decimal
reads back and the layouts keep the number. Whether the float itself is read depends on the point:
without one, the text is an integer numeral too, and integers are tried first. The point is missing
just from the integers of at least `10 ^ 16`, and of those the ones below `2 ^ 63` are read as
integers. They are written as such although their neighbours keep a `.0`.

## Contents
- **Layout.** `Decimal.plain`: its digits, its point and the number that it denotes.
- **Magnitudes.** `decimalNumeral_magnitudeChars` and `point_mem_magnitudeChars`.
- **Large integers.** `shownInteger_lt` and `lt_shownInteger`: the integer that the text shows and
  the float are on the same side of `2 ^ 63`.
- **Floats.** `floatNumeral_render` and `ofText_render_float`.
-/

namespace GameContent

attribute [local instance] natPow

/-! ## Layout -/

namespace Decimal

variable {d : Decimal}

theorem digits_digitChars (d : Decimal) : Digits d.digitChars := by
  intro c hc
  exact Nat.isDigit_of_mem_toDigits (by decide) (by decide) hc

theorem digitChars_ne_nil (d : Decimal) : d.digitChars ≠ [] := Nat.toDigits_ne_nil

theorem digitsValue_digitChars (d : Decimal) : digitsValue d.digitChars = d.digits :=
  Nat.ofDigitChars_ten_toDigits

theorem digits_zeros (n : Nat) : Digits (List.replicate n '0') := by
  intro c hc
  rw [List.eq_of_mem_replicate hc]
  decide

/-- Without a fraction, the layout is digits only. -/
theorem plain_of_nonneg (h : 0 ≤ d.exponent) :
    d.plain = d.digitChars ++ List.replicate d.exponent.toNat '0' := if_pos h

theorem digits_plain (h : 0 ≤ d.exponent) : Digits d.plain := by
  rw [plain_of_nonneg h]
  exact digits_append.2 ⟨digits_digitChars d, digits_zeros _⟩

theorem plain_ne_nil (h : 0 ≤ d.exponent) : d.plain ≠ [] := by
  rw [plain_of_nonneg h]
  exact List.append_ne_nil_of_left_ne_nil (digitChars_ne_nil d) _

theorem digitsValue_plain (h : 0 ≤ d.exponent) :
    digitsValue d.plain = d.digits * 10 ^ d.exponent.toNat := by
  rw [plain_of_nonneg h]
  unfold digitsValue
  rw [Nat.ofDigitChars_append, Nat.ofDigitChars_replicate_zero, Nat.mul_comm]
  exact congrArg (· * _) (digitsValue_digitChars d)

/-- With a fraction, the layout is digits around a point, and one digit at least before it. -/
theorem exists_plain_of_neg (h : d.exponent < 0) :
    ∃ whole fraction, Digits whole ∧ Digits fraction ∧ whole ≠ []
      ∧ d.plain = whole ++ ('.' :: fraction)
      ∧ digitsValue (whole ++ fraction) = d.digits ∧ (fraction.length : Int) = -d.exponent := by
  have hdigits := digits_digitChars d
  have hlength : (d.digitChars.length : Int) = d.scale - d.exponent := by
    unfold scale digitChars
    omega
  unfold plain
  rw [if_neg (by omega)]
  by_cases hscale : 0 < d.scale
  · rw [if_pos hscale]
    refine ⟨d.digitChars.take d.scale.toNat, d.digitChars.drop d.scale.toNat, ?_, ?_, ?_, rfl, ?_,
      ?_⟩
    · exact fun c hc => hdigits c (List.mem_of_mem_take hc)
    · exact fun c hc => hdigits c (List.mem_of_mem_drop hc)
    · rw [Ne, List.take_eq_nil_iff, not_or]
      exact ⟨by omega, digitChars_ne_nil d⟩
    · rw [List.take_append_drop, digitsValue_digitChars]
    · rw [List.length_drop]
      omega
  · rw [if_neg hscale]
    refine ⟨['0'], List.replicate (-d.scale).toNat '0' ++ d.digitChars, ?_, ?_, ?_, rfl, ?_, ?_⟩
    · exact digits_zeros 1
    · exact digits_append.2 ⟨digits_zeros _, hdigits⟩
    · simp
    · have hzeros : ['0'] ++ (List.replicate (-d.scale).toNat '0' ++ d.digitChars)
          = List.replicate ((-d.scale).toNat + 1) '0' ++ d.digitChars := by
        rw [List.replicate_succ]
        rfl
      rw [hzeros]
      unfold digitsValue
      rw [Nat.ofDigitChars_append, Nat.ofDigitChars_replicate_zero, Nat.mul_zero]
      exact digitsValue_digitChars d
    · rw [List.length_append, List.length_replicate]
      omega

theorem toBinary64_digitsValue_plain (negative : Bool) (h : 0 ≤ d.exponent) :
    toBinary64 negative ⟨digitsValue d.plain, 0⟩ = d.toBinary64 negative := by
  rw [digitsValue_plain h, toBinary64_mul_ten_pow]
  congr 2
  simp [h]

/-- **The layout keeps the number.** -/
theorem decimalNumeral_plain (d : Decimal) :
    ∃ d', DecimalNumeral d.plain d'
      ∧ ∀ negative, d'.toBinary64 negative = d.toBinary64 negative := by
  rcases lt_or_ge d.exponent 0 with hneg | hnonneg
  · obtain ⟨whole, fraction, hwhole, hfraction, hne, heq, hvalue, hlength⟩ :=
      exists_plain_of_neg hneg
    have hnumeral := DecimalNumeral.mk hwhole (.point hfraction)
      (List.append_ne_nil_of_left_ne_nil hne _) .none
    rw [List.append_nil, ← heq, hvalue, hlength, Int.zero_sub, Int.neg_neg] at hnumeral
    exact ⟨_, hnumeral, fun _ => rfl⟩
  · have hnumeral := DecimalNumeral.mk (digits_plain hnonneg) .none
      (by rw [List.append_nil]; exact plain_ne_nil hnonneg) .none
    rw [List.append_nil, List.append_nil] at hnumeral
    exact ⟨_, hnumeral, fun negative => toBinary64_digitsValue_plain negative hnonneg⟩

end Decimal

/-! ## Magnitudes -/

namespace Magnitude

/-- From `2 ^ 53` on, a magnitude is an integer. -/
theorem dvd_units_of_le {x : Magnitude} (h : 2 ^ (53 : Nat) * 2 ^ (1074 : Nat) ≤ x.units) :
    2 ^ (1074 : Nat) ∣ x.units := by
  have hexp : 1074 ≤ x.exponent := by
    by_contra hlt
    have hpow := two_pow_le_two_pow (Nat.le_of_lt (Nat.lt_of_not_le hlt))
    have hunits : x.units < 2 ^ (53 : Nat) * 2 ^ x.exponent :=
      Nat.mul_lt_mul_of_pos_right x.mantissa_lt (two_pow_pos _)
    exact absurd (hunits.trans_le (Nat.mul_le_mul_left _ hpow)) (Nat.not_lt.2 h)
  have hdvd : ∀ a : Nat, a ≤ x.exponent → 2 ^ a ∣ 2 ^ x.exponent := fun a => Nat.pow_dvd_pow 2
  exact Nat.dvd_mul_left_of_dvd (hdvd 1074 hexp) _

theorem eq_zero_of_mantissa_eq_zero {x : Magnitude} (h : x.mantissa = 0) : x = .zero := by
  apply units_injective
  unfold units
  rw [h, Nat.zero_mul]
  rfl

end Magnitude

namespace Binary64

variable {x : Magnitude}

theorem isSmallInteger_iff :
    isSmallInteger x = true
      ↔ 2 ^ (1074 : Nat) ∣ x.units ∧ x.units < 10 ^ (16 : Nat) * 2 ^ (1074 : Nat) := by
  unfold isSmallInteger
  rw [Bool.and_eq_true, decide_eq_true_iff, decide_eq_true_iff, Nat.dvd_iff_mod_eq_zero]

theorem magnitudeChars_zero : magnitudeChars .zero = ['0', '.', '0'] := by
  decide +kernel

theorem magnitudeChars_of_small (hx : x.mantissa ≠ 0) (h : isSmallInteger x = true) :
    magnitudeChars x = (x.shortest .up).plain ++ ['.', '0'] := by
  unfold magnitudeChars
  rw [if_neg hx, if_pos h]

theorem magnitudeChars_of_not_small (hx : x.mantissa ≠ 0) (h : ¬isSmallInteger x = true) :
    magnitudeChars x = (x.shortest .up).plain := by
  unfold magnitudeChars
  rw [if_neg hx, if_neg h, List.append_nil]

/-- **The text of a magnitude is a numeral of it.** -/
theorem decimalNumeral_magnitudeChars (x : Magnitude) :
    ∃ d, DecimalNumeral (magnitudeChars x) d
      ∧ ∀ negative, d.toBinary64 negative = .finite negative x := by
  by_cases hx : x.mantissa = 0
  · obtain rfl := Magnitude.eq_zero_of_mantissa_eq_zero hx
    rw [magnitudeChars_zero]
    exact ⟨⟨0, -1⟩, readDecimal?_eq_some_iff.1 rfl, fun _ => rfl⟩
  · by_cases hsmall : isSmallInteger x = true
    · have hdvd := (isSmallInteger_iff.1 hsmall).1
      have hexp := (Magnitude.shortest_exponent_nonneg_iff .up hx).2 hdvd
      have hnumeral := DecimalNumeral.mk (Decimal.digits_plain hexp)
        (.point (Decimal.digits_zeros 1)) (by simp) .none
      have hvalue : digitsValue ((x.shortest .up).plain ++ List.replicate 1 '0')
          = digitsValue (x.shortest .up).plain * 10 ^ (1 : Nat) := by
        unfold digitsValue
        rw [Nat.ofDigitChars_append, Nat.ofDigitChars_replicate_zero, Nat.mul_comm]
      rw [List.append_nil, hvalue] at hnumeral
      rw [magnitudeChars_of_small hx hsmall]
      refine ⟨_, hnumeral, ?_⟩
      intro negative
      rw [Decimal.toBinary64_mul_ten_pow, ← Magnitude.toBinary64_shortest .up negative x,
        ← Decimal.toBinary64_digitsValue_plain negative hexp]
      rfl
    · obtain ⟨d, hd, hread⟩ := Decimal.decimalNumeral_plain (x.shortest .up)
      rw [magnitudeChars_of_not_small hx hsmall]
      refine ⟨d, hd, ?_⟩
      intro negative
      rw [hread, Magnitude.toBinary64_shortest]

/-- There is a point in the text, except of the integers that are not small. -/
theorem point_mem_magnitudeChars
    (h : ¬(2 ^ (1074 : Nat) ∣ x.units ∧ 10 ^ (16 : Nat) * 2 ^ (1074 : Nat) ≤ x.units)) :
    '.' ∈ magnitudeChars x := by
  by_cases hx : x.mantissa = 0
  · obtain rfl := Magnitude.eq_zero_of_mantissa_eq_zero hx
    rw [magnitudeChars_zero]
    simp
  · by_cases hsmall : isSmallInteger x = true
    · rw [magnitudeChars_of_small hx hsmall]
      simp
    · have hexp : (x.shortest .up).exponent < 0 := by
        rw [← Int.not_le, Magnitude.shortest_exponent_nonneg_iff .up hx]
        intro hdvd
        rw [isSmallInteger_iff] at hsmall
        exact hsmall ⟨hdvd, Nat.lt_of_not_le fun hle => h ⟨hdvd, hle⟩⟩
      obtain ⟨whole, fraction, -, -, -, heq, -, -⟩ := Decimal.exists_plain_of_neg hexp
      rw [magnitudeChars_of_not_small hx hsmall, heq]
      simp

/-! ## Large integers -/

/-- From `10 ^ 16` on, a magnitude is an integer and written without a point. -/
theorem magnitudeChars_of_large (h : 10 ^ (16 : Nat) * 2 ^ (1074 : Nat) ≤ x.units) :
    0 ≤ (x.shortest .up).exponent ∧ magnitudeChars x = (x.shortest .up).plain := by
  have hpow : 2 ^ (53 : Nat) ≤ 10 ^ (16 : Nat) := by decide
  have hdvd := Magnitude.dvd_units_of_le ((Nat.mul_le_mul_right _ hpow).trans h)
  have hx : x.mantissa ≠ 0 := by
    intro hzero
    obtain rfl := Magnitude.eq_zero_of_mantissa_eq_zero hzero
    exact absurd h (by decide +kernel)
  have hsmall : ¬isSmallInteger x = true := by
    rw [isSmallInteger_iff]
    exact fun hlt => absurd hlt.2 (Nat.not_lt.2 h)
  exact ⟨(Magnitude.shortest_exponent_nonneg_iff .up hx).2 hdvd,
    magnitudeChars_of_not_small hx hsmall⟩

/-- The integer that the text of a large magnitude shows. -/
def shownInteger (x : Magnitude) : Nat := digitsValue (magnitudeChars x)

theorem integerNumeral_magnitudeChars (h : 10 ^ (16 : Nat) * 2 ^ (1074 : Nat) ≤ x.units)
    (negative : Bool) :
    IntegerNumeral (signChars negative ++ magnitudeChars x)
      (signedInt negative (shownInteger x)) := by
  obtain ⟨hexp, heq⟩ := magnitudeChars_of_large h
  unfold shownInteger
  rw [heq]
  exact .mk (sign_signChars negative) (Decimal.digits_plain hexp) (Decimal.plain_ne_nil hexp)

/-- The integer that is shown need not be the magnitude, but it is rounded to it. -/
theorem roundUnits_shownInteger (h : 10 ^ (16 : Nat) * 2 ^ (1074 : Nat) ≤ x.units) :
    Magnitude.roundUnits (shownInteger x) 1 = x.units := by
  obtain ⟨hexp, heq⟩ := magnitudeChars_of_large h
  have hread := Magnitude.toBinary64_shortest .up false x
  have hden : (-(x.shortest .up).exponent).toNat = 0 := by omega
  rw [Decimal.toBinary64_eq_finite_iff, hden, Nat.pow_zero, ← Decimal.digitsValue_plain hexp,
    ← heq] at hread
  exact hread

/-- The magnitude `2 ^ 63`. -/
def twoPow63 : Magnitude where
  mantissa := 4503599627370496
  exponent := 1085
  mantissa_lt := by decide
  exponent_le := by decide
  full := .inr (by decide)

theorem units_twoPow63 : twoPow63.units = 2 ^ (63 : Nat) * 2 ^ (1074 : Nat) := by decide +kernel

theorem roundUnits_two_pow_63 :
    Magnitude.roundUnits (2 ^ (63 : Nat)) 1 = 2 ^ (63 : Nat) * 2 ^ (1074 : Nat) := by
  rw [← units_twoPow63]
  exact Magnitude.roundUnits_one_of_units_eq units_twoPow63

/-- The fewest digits of `2 ^ 63` make more than it. -/
theorem shownInteger_twoPow63 : shownInteger twoPow63 = 9223372036854776000 := by
  decide +kernel

/-- Below `2 ^ 63`, no integer from there on is shown. -/
theorem shownInteger_lt (hlarge : 10 ^ (16 : Nat) * 2 ^ (1074 : Nat) ≤ x.units)
    (h : x.units < 2 ^ (63 : Nat) * 2 ^ (1074 : Nat)) : shownInteger x < 2 ^ (63 : Nat) := by
  by_contra hle
  have hround := Magnitude.roundUnits_mono_left (Nat.le_of_not_lt hle) 1
  rw [roundUnits_two_pow_63, roundUnits_shownInteger hlarge] at hround
  exact absurd h (Nat.not_lt.2 hround)

/-- From `2 ^ 63` on, a larger integer is shown. -/
theorem lt_shownInteger (h : 2 ^ (63 : Nat) * 2 ^ (1074 : Nat) ≤ x.units) :
    2 ^ (63 : Nat) < shownInteger x := by
  rcases Nat.lt_or_eq_of_le h with hlt | heq
  · have hpow : 10 ^ (16 : Nat) ≤ 2 ^ (63 : Nat) := by decide
    have hlarge := (Nat.mul_le_mul_right (2 ^ (1074 : Nat)) hpow).trans h
    by_contra hle
    have hround := Magnitude.roundUnits_mono_left (Nat.le_of_not_lt hle) 1
    rw [roundUnits_two_pow_63, roundUnits_shownInteger hlarge] at hround
    exact absurd hlt (Nat.not_lt.2 hround)
  · -- Integers below `2 ^ 63` are rounded to it too, so here the digits themselves decide.
    obtain rfl : twoPow63 = x := Magnitude.units_injective (units_twoPow63.trans heq)
    rw [shownInteger_twoPow63]
    decide

/-! ## Floats -/

/-- Integers of at least `10 ^ 16` and below `2 ^ 63`, of either sign. -/
def ShowsInt64 : Binary64 → Prop
  | .finite _ x => 10 ^ (16 : Nat) * 2 ^ (1074 : Nat) ≤ x.units
      ∧ x.units < 2 ^ (63 : Nat) * 2 ^ (1074 : Nat)
  | _ => False

/-- **The text of a float is a numeral of it.** -/
theorem floatNumeral_render {x : Binary64} (hx : x ≠ .nan) : FloatNumeral x.render x := by
  cases x with
  | nan => exact absurd rfl hx
  | infinite negative =>
    exact .infinity (sign_signChars negative) (map_toLower_eq_inf_iff.1 (.inl (by simp)))
  | finite negative x =>
    obtain ⟨d, hd, hread⟩ := decimalNumeral_magnitudeChars x
    have hnumeral := FloatNumeral.decimal (sign_signChars negative) hd
    rwa [hread] at hnumeral

theorem fitsInt64_signedInt (negative : Bool) {n : Nat} (h : n < 2 ^ (63 : Nat)) :
    FitsInt64 (signedInt negative n) := by
  have hpow : 2 ^ (63 : Nat) = 9223372036854775808 := by decide
  rw [hpow] at h
  unfold FitsInt64 signedInt
  split <;> omega

theorem not_fitsInt64_signedInt (negative : Bool) {n : Nat} (h : 2 ^ (63 : Nat) < n) :
    ¬FitsInt64 (signedInt negative n) := by
  have hpow : 2 ^ (63 : Nat) = 9223372036854775808 := by decide
  rw [hpow] at h
  unfold FitsInt64 signedInt
  split <;> omega

/-- Only these floats have the text of an integer of 64 bits. -/
theorem showsInt64_of_integerNumeral {x : Binary64} (hx : x ≠ .nan) {n : Int}
    (hn : IntegerNumeral x.render n) (hfits : FitsInt64 n) : x.ShowsInt64 := by
  cases x with
  | nan => exact absurd rfl hx
  | infinite negative =>
    have hmem : 'i' ∈ (Binary64.infinite negative).render := by simp [render]
    exact absurd (hn.isDigit_or_sign _ hmem) (by decide)
  | finite negative x =>
    by_cases hlarge : 10 ^ (16 : Nat) * 2 ^ (1074 : Nat) ≤ x.units
    · refine ⟨hlarge, ?_⟩
      by_contra hle
      obtain rfl := hn.unique (integerNumeral_magnitudeChars hlarge negative)
      exact not_fitsInt64_signedInt negative (lt_shownInteger (Nat.le_of_not_lt hle)) hfits
    · have hmem : '.' ∈ (Binary64.finite negative x).render :=
        List.mem_append_right _ (point_mem_magnitudeChars fun h => hlarge h.2)
      exact absurd (hn.isDigit_or_sign _ hmem) (by decide)

end Binary64

namespace Value

open Binary64

/-- A float that shows an integer of 64 bits is read as an integer, and this is rounded to the
    float. -/
theorem exists_ofText_eq_int {x : Binary64} (h : x.ShowsInt64) :
    ∃ n : Int64, ofText (Value.float x).render = .int n
      ∧ Binary64.ofRatio (n.toInt < 0) n.toInt.natAbs 1 = x := by
  cases x with
  | nan => exact h.elim
  | infinite negative => exact h.elim
  | finite negative x =>
    obtain ⟨hlarge, hlt⟩ := h
    have hfits := fitsInt64_signedInt negative (shownInteger_lt hlarge hlt)
    have hround := roundUnits_shownInteger hlarge
    have hnumeral := integerNumeral_magnitudeChars hlarge negative
    rw [← toInt_ofInt_of_fits hfits] at hnumeral
    refine ⟨_, ofText_of_integerNumeral hnumeral, ?_⟩
    have hpos : shownInteger x ≠ 0 := by
      intro hzero
      rw [hzero] at hround
      rw [← hround] at hlarge
      exact absurd hlarge (by decide +kernel)
    have hsign : decide (signedInt negative (shownInteger x) < 0) = negative := by
      unfold signedInt
      cases negative <;> simp [hpos, Nat.pos_iff_ne_zero]
    have habs : (signedInt negative (shownInteger x)).natAbs = shownInteger x := by
      unfold signedInt
      split <;> omega
    rw [toInt_ofInt_of_fits hfits, hsign, habs, ofRatio_eq_finite_iff]
    exact hround

/-- **Which floats are read back.** Every float but NaN is read back from its text as it is, except
    the integers of at least `10 ^ 16` and below `2 ^ 63`: they are read as integers. -/
theorem ofText_render_float (x : Binary64) (hx : x ≠ .nan) :
    (ofText (Value.float x).render = .float x ↔ ¬x.ShowsInt64)
      ∧ (x.ShowsInt64 → ∃ n : Int64, ofText (Value.float x).render = .int n
          ∧ Binary64.ofRatio (n.toInt < 0) n.toInt.natAbs 1 = x) := by
  refine ⟨⟨?_, ?_⟩, exists_ofText_eq_int⟩
  · intro hback hshows
    obtain ⟨n, hn, -⟩ := exists_ofText_eq_int hshows
    rw [hback] at hn
    exact absurd hn (by simp)
  · intro hshows
    exact ofText_of_floatNumeral (floatNumeral_render hx)
      fun n hn hfits => hshows (showsInt64_of_integerNumeral hx hn hfits)

/-- The float `10 ^ 16`. -/
def tenPow16 : Binary64 := .finite false {
  mantissa := 5000000000000000
  exponent := 1075
  mantissa_lt := by decide
  exponent_le := by decide
  full := .inr (by decide) }

/-- The float `2 ^ 63`. -/
def floatTwoPow63 : Binary64 := .finite false twoPow63

/-- `10 ^ 16` is not read back, but `2 ^ 63` is: one of them shows an integer of 64 bits. -/
theorem ofText_render_float_large :
    ofText (Value.float tenPow16).render ≠ .float tenPow16
      ∧ ofText (Value.float floatTwoPow63).render = .float floatTwoPow63 := by
  have hshows : tenPow16.ShowsInt64 := by
    unfold tenPow16 ShowsInt64
    decide +kernel
  have hnot : ¬floatTwoPow63.ShowsInt64 := by
    unfold floatTwoPow63 ShowsInt64
    decide +kernel
  constructor
  · intro hback
    exact (ofText_render_float tenPow16 (by simp [tenPow16])).1.1 hback hshows
  · exact (ofText_render_float floatTwoPow63 (by simp [floatTwoPow63])).1.2 hnot

/-- So not every float is read back: `10 ^ 16` is written without a point and becomes an integer. -/
theorem ofText_render_tenPow16 :
    tenPow16 ≠ .nan ∧ (Value.float tenPow16).render = "10000000000000000"
      ∧ ofText (Value.float tenPow16).render = .int 10000000000000000
      ∧ ¬∀ x : Binary64, x ≠ .nan → ofText (Value.float x).render = .float x := by
  have hchars : tenPow16.render = "10000000000000000".toList := by decide +kernel
  have hrender : (Value.float tenPow16).render = "10000000000000000" := by
    simp only [render]
    rw [hchars, String.ofList_toList]
  have hnumeral : IntegerNumeral "10000000000000000".toList (10000000000000000 : Int64).toInt :=
    readInteger?_eq_some_iff.1 (by decide +kernel)
  have hread : ofText (Value.float tenPow16).render = .int 10000000000000000 := by
    have h := ofText_of_integerNumeral hnumeral
    rwa [String.ofList_toList, ← hrender] at h
  refine ⟨by simp [tenPow16], hrender, hread, ?_⟩
  intro hall
  have hback := hall tenPow16 (by simp [tenPow16])
  rw [hread] at hback
  exact absurd hback (by simp)

end Value
end GameContent
