import GameContent.Decimal.Shortest
import GameContent.Proofs.Decimal.Rounding

/-!
# `Proofs.Decimal.Shortest` — the shortest decimal reads back

Whatever the search finds has passed its own test, and if it finds nothing the exact value is taken;
so `Magnitude.shortest` always reads back. Its exponent tells whether the magnitude is an integer:
an integer of at most 17 digits is found on the grid of the integers at the latest, a longer one on
a coarser grid, and a decimal that is an integer is never rounded to anything else.

## Contents
- **Zeros at the end.** `Decimal.stripZeros` keeps the number and never lowers the exponent.
- **The search.** `nearestAt?_eq_some`, `exists_nearestAt?` and `shortest_cases`.
- **Results.** `toBinary64_shortest` and `shortest_exponent_nonneg_iff`.
-/

namespace GameContent

attribute [local instance] natPow

/-! ## Zeros at the end -/

namespace Decimal

theorem stripZeros_mul_ten {n : Nat} (hn : n ≠ 0) (e : Int) :
    stripZeros ⟨n * 10, e⟩ = stripZeros ⟨n, e + 1⟩ := by
  rw [stripZeros, dif_pos (by simp only; omega)]
  simp

theorem stripZeros_mul_ten_pow {n : Nat} (hn : n ≠ 0) (k : Nat) (e : Int) :
    stripZeros ⟨n * 10 ^ k, e⟩ = stripZeros ⟨n, e + k⟩ := by
  induction k generalizing e with
  | zero => simp
  | succ k ih =>
    rw [Nat.pow_succ, ← Nat.mul_assoc, stripZeros_mul_ten, ih]
    · congr 2
      omega
    · exact Nat.mul_ne_zero hn (Nat.ne_of_gt (ten_pow_pos _))

theorem toBinary64_stripZeros (negative : Bool) (d : Decimal) :
    d.stripZeros.toBinary64 negative = d.toBinary64 negative := by
  induction d using stripZeros.induct with
  | case1 d h ih =>
    have hdigits : d.digits / 10 * 10 ^ (1 : Nat) = d.digits := by omega
    have hmove := toBinary64_mul_ten_pow negative (d.digits / 10) 1 d.exponent
    rw [hdigits] at hmove
    rw [stripZeros, dif_pos h, ih]
    exact hmove.symm
  | case2 d h => rw [stripZeros, dif_neg h]

theorem exponent_le_stripZeros (d : Decimal) : d.exponent ≤ d.stripZeros.exponent := by
  induction d using stripZeros.induct with
  | case1 d h ih =>
    rw [stripZeros, dif_pos h]
    exact Int.le_trans (Int.le_add_one (Int.le_refl _)) ih
  | case2 d h => rw [stripZeros, dif_neg h]

end Decimal

namespace Magnitude

variable {tie : Tie} {x : Magnitude}

/-! ## The search -/

theorem readsBack_iff {d : Decimal} :
    x.readsBack d = true ↔ d.toBinary64 false = .finite false x := by
  unfold readsBack
  exact beq_iff_eq

/-- The greatest multiple of `10 ^ e` that is not above the magnitude. -/
def lowerAt (x : Magnitude) (e : Int) : Decimal :=
  ⟨x.scaledUnits / (2 ^ (1074 : Nat) * 10 ^ (400 + e).toNat), e⟩

/-- The multiple of `10 ^ e` after it. -/
def upperAt (x : Magnitude) (e : Int) : Decimal :=
  ⟨x.scaledUnits / (2 ^ (1074 : Nat) * 10 ^ (400 + e).toNat) + 1, e⟩

/-- The candidate that is taken, by which of the two read back; `nearer` is taken if both do. -/
def choose (lower upper nearer : Decimal) : Bool → Bool → Option Decimal
  | true, true => some nearer
  | true, false => some lower
  | false, true => some upper
  | false, false => none

theorem choose_eq_some {lower upper nearer d : Decimal} {low up : Bool}
    (hnearer : nearer = upper ∨ nearer = lower) (h : choose lower upper nearer low up = some d) :
    (d = lower ∧ low = true) ∨ (d = upper ∧ up = true) := by
  cases low <;> cases up <;> simp only [choose, reduceCtorEq, Option.some.injEq] at h
  · exact .inr ⟨h.symm, rfl⟩
  · exact .inl ⟨h.symm, rfl⟩
  · subst h
    exact hnearer.symm.imp (⟨·, rfl⟩) (⟨·, rfl⟩)

/-- The search on one grid, without the rule by which it takes one of two. It is opened as a
    function and with the test as a variable, so that no test is evaluated. -/
theorem nearestAt?_eq (tie : Tie) (x : Magnitude) (e : Int) :
    ∃ nearer, (nearer = x.upperAt e ∨ nearer = x.lowerAt e)
      ∧ x.nearestAt? tie e = choose (x.lowerAt e) (x.upperAt e) nearer
          (x.readsBack (x.lowerAt e)) (x.readsBack (x.upperAt e)) := by
  obtain ⟨search, hsearch⟩ : ∃ search, search = @nearestAt? := ⟨_, rfl⟩
  obtain ⟨test, htest⟩ : ∃ test, test = @readsBack := ⟨_, rfl⟩
  rw [← hsearch, ← htest]
  delta nearestAt? at hsearch
  rw [hsearch, ← htest]
  dsimp only
  unfold lowerAt upperAt
  split
  · next hlower hupper =>
    rw [hlower, hupper]
    exact ⟨_, ite_eq_or_eq _ _ _, rfl⟩
  · next hlower hupper =>
    rw [hlower, hupper]
    exact ⟨_, .inl rfl, rfl⟩
  · next hlower hupper =>
    rw [hlower, hupper]
    exact ⟨_, .inl rfl, rfl⟩
  · next hlower hupper =>
    rw [hlower, hupper]
    exact ⟨_, .inl rfl, rfl⟩

/-- What is found on a grid lies on it and reads back. -/
theorem nearestAt?_eq_some {e : Int} {d : Decimal} (h : x.nearestAt? tie e = some d) :
    d.exponent = e ∧ x.readsBack d = true := by
  obtain ⟨nearer, hnearer, heq⟩ := nearestAt?_eq tie x e
  rcases choose_eq_some hnearer (heq.symm.trans h) with ⟨rfl, hback⟩ | ⟨rfl, hback⟩
  · exact ⟨rfl, hback⟩
  · exact ⟨rfl, hback⟩

/-- If the lower candidate reads back, something is found. -/
theorem exists_nearestAt? (tie : Tie) {e : Int} (h : x.readsBack (x.lowerAt e) = true) :
    ∃ d, x.nearestAt? tie e = some d := by
  obtain ⟨nearer, -, heq⟩ := nearestAt?_eq tie x e
  rw [heq, h]
  cases x.readsBack (x.upperAt e) with
  | true => exact ⟨_, rfl⟩
  | false => exact ⟨_, rfl⟩

/-- The shortest decimal comes from the first grid that has one, or else it is the exact value. -/
theorem shortest_cases (tie : Tie) (x : Magnitude) :
    (∃ (n : Nat) (d : Decimal), x.nearestAt? tie (x.scale - (n + 1)) = some d
        ∧ (∀ k : Nat, k < n → x.nearestAt? tie (x.scale - (k + 1)) = none)
        ∧ x.shortest tie = d.stripZeros)
      ∨ x.shortest tie = x.exactDecimal.stripZeros := by
  unfold shortest
  dsimp only
  generalize hfound : List.findSome? _ (List.range 17) = found
  cases found with
  | none => exact .inr rfl
  | some d =>
    obtain ⟨before, n, after, hrange, hn, hbefore⟩ := List.findSome?_eq_some_iff.1 hfound
    rw [List.range_eq_range'] at hrange
    obtain ⟨m, -, rfl, hafter⟩ := List.range'_eq_append_iff.1 hrange
    obtain ⟨rfl, -⟩ := List.range'_eq_cons_iff.1 hafter.symm
    refine .inl ⟨_, d, hn, ?_, rfl⟩
    intro k hk
    refine hbefore k (List.mem_range'_1.2 ?_)
    omega

/-! ## Reading back -/

theorem toBinary64_of_readsBack {d : Decimal} (h : x.readsBack d = true) (negative : Bool) :
    d.toBinary64 negative = .finite negative x :=
  Decimal.toBinary64_eq_finite_iff.2 (Decimal.toBinary64_eq_finite_iff.1 (readsBack_iff.1 h))

theorem toBinary64_exactDecimal (negative : Bool) (x : Magnitude) :
    x.exactDecimal.toBinary64 negative = .finite negative x := by
  have hten : ∀ n : Nat, 10 ^ n = 5 ^ n * 2 ^ n := fun n => Nat.mul_pow 5 2 n
  have hnum : (-1074 : Int).toNat = 0 := rfl
  have hden : (-(-1074) : Int).toNat = 1074 := rfl
  unfold exactDecimal
  rw [Decimal.toBinary64_eq_finite_iff, hnum, hden, Nat.pow_zero, Nat.mul_one]
  refine (roundUnits_congr (ten_pow_pos 1074) (two_pow_pos 1074) ?_).trans
    (roundUnits_units x)
  rw [hten 1074, Nat.mul_assoc]

/-- **The shortest decimal reads back**, with either sign. -/
theorem toBinary64_shortest (tie : Tie) (negative : Bool) (x : Magnitude) :
    (x.shortest tie).toBinary64 negative = .finite negative x := by
  rcases shortest_cases tie x with ⟨n, d, hd, -, heq⟩ | heq
  · rw [heq, Decimal.toBinary64_stripZeros]
    exact toBinary64_of_readsBack (nearestAt?_eq_some hd).2 negative
  · rw [heq, Decimal.toBinary64_stripZeros, toBinary64_exactDecimal]

/-! ## Integers -/

theorem length_toDigits_mul_ten_pow {n : Nat} (hn : n ≠ 0) (k : Nat) :
    (Nat.toDigits 10 (n * 10 ^ k)).length = (Nat.toDigits 10 n).length + k := by
  have hpos : 0 < (Nat.toDigits 10 n).length := Nat.length_toDigits_pos
  have hlow := ten_pow_le_of_length hn
  have hup := lt_ten_pow_length n
  generalize (Nat.toDigits 10 n).length = len at hpos hlow hup ⊢
  apply Nat.le_antisymm
  · rw [Nat.length_toDigits_le_iff (by decide) (by omega), Nat.pow_add]
    exact Nat.mul_lt_mul_of_pos_right hup (ten_pow_pos _)
  · rcases Nat.eq_zero_or_pos (len - 1 + k) with hzero | hsum
    · have := Nat.length_toDigits_pos (b := 10) (n := n * 10 ^ k)
      omega
    · refine Nat.not_lt.1 ?_
      intro hlt
      have hle : (Nat.toDigits 10 (n * 10 ^ k)).length ≤ len - 1 + k := by omega
      rw [Nat.length_toDigits_le_iff (by decide) hsum, Nat.pow_add] at hle
      exact absurd hle (Nat.not_lt.2 (Nat.mul_le_mul_right _ hlow))

variable {n : Nat}

theorem scaledUnits_of_units_eq (h : x.units = n * 2 ^ (1074 : Nat)) :
    x.scaledUnits = n * 10 ^ (400 : Nat) * 2 ^ (1074 : Nat) := by
  unfold scaledUnits
  rw [h, Nat.mul_right_comm]

/-- The scale of an integer is the number of its digits. -/
theorem scale_of_units_eq (hn : n ≠ 0) (h : x.units = n * 2 ^ (1074 : Nat)) :
    x.scale = (Nat.toDigits 10 n).length := by
  unfold scale
  rw [scaledUnits_of_units_eq h, Nat.mul_div_cancel _ (two_pow_pos 1074),
    length_toDigits_mul_ten_pow hn]
  omega

/-- An integer is the rounding of itself. -/
theorem roundUnits_one_of_units_eq (h : x.units = n * 2 ^ (1074 : Nat)) :
    roundUnits n 1 = x.units := by
  refine (roundUnits_congr Nat.one_pos (two_pow_pos 1074) ?_).trans (roundUnits_units x)
  rw [h, Nat.mul_one]

/-- On the grid of the integers, an integer is found. -/
theorem readsBack_lowerAt_zero (h : x.units = n * 2 ^ (1074 : Nat)) :
    x.readsBack (x.lowerAt 0) = true := by
  have hgrid : (400 + 0 : Int).toNat = 400 := rfl
  have hlower : x.scaledUnits / (2 ^ (1074 : Nat) * 10 ^ (400 : Nat)) = n := by
    have hpos : 0 < 10 ^ (400 : Nat) * 2 ^ (1074 : Nat) :=
      Nat.mul_pos (ten_pow_pos 400) (two_pow_pos 1074)
    rw [scaledUnits_of_units_eq h, Nat.mul_assoc, Nat.mul_comm (2 ^ (1074 : Nat)),
      Nat.mul_div_cancel _ hpos]
  unfold lowerAt
  rw [hgrid, hlower, readsBack_iff, Decimal.toBinary64_eq_finite_iff, Int.neg_zero, Int.toNat_zero,
    Nat.pow_zero, Nat.mul_one]
  exact roundUnits_one_of_units_eq h

/-- The grid of the integers is never passed over by an integer, and the exact value of an integer
    loses its fraction with the zeros at its end. -/
theorem shortest_exponent_nonneg (tie : Tie) (hn : n ≠ 0) (h : x.units = n * 2 ^ (1074 : Nat)) :
    0 ≤ (x.shortest tie).exponent := by
  have hscale := scale_of_units_eq hn h
  have hlen : 0 < (Nat.toDigits 10 n).length := Nat.length_toDigits_pos
  rcases shortest_cases tie x with ⟨k, d, hd, hbefore, heq⟩ | heq
  · rw [heq]
    refine Int.le_trans ?_ d.exponent_le_stripZeros
    rw [(nearestAt?_eq_some hd).1]
    by_contra hneg
    -- The grid of the integers comes before the one on which `d` was found.
    have hzero := hbefore ((Nat.toDigits 10 n).length - 1) (by omega)
    have hgrid : x.scale - (((Nat.toDigits 10 n).length - 1 : Nat) + 1) = 0 := by omega
    obtain ⟨d', hd'⟩ := exists_nearestAt? tie (readsBack_lowerAt_zero h)
    rw [hgrid, hd'] at hzero
    exact absurd hzero (by simp)
  · have hten : ∀ n : Nat, 10 ^ n = 2 ^ n * 5 ^ n := fun n => Nat.mul_pow 2 5 n
    rw [heq]
    unfold exactDecimal
    rw [h, Nat.mul_assoc, ← hten 1074, Decimal.stripZeros_mul_ten_pow hn]
    exact Decimal.exponent_le_stripZeros ⟨n, 0⟩

/-- **Integers**: the shortest decimal is an integer just if the magnitude is one. -/
theorem shortest_exponent_nonneg_iff (tie : Tie) (hx : x.mantissa ≠ 0) :
    0 ≤ (x.shortest tie).exponent ↔ 2 ^ (1074 : Nat) ∣ x.units := by
  constructor
  · intro h
    have hround := Decimal.toBinary64_eq_finite_iff.1 (toBinary64_shortest tie false x)
    have hden : (-(x.shortest tie).exponent).toNat = 0 := by omega
    rw [hden, Nat.pow_zero] at hround
    rw [← hround]
    exact dvd_roundUnits_one _
  · rintro ⟨n, hn⟩
    rw [Nat.mul_comm] at hn
    apply shortest_exponent_nonneg tie _ hn
    rintro rfl
    rw [Nat.zero_mul] at hn
    exact Nat.mul_ne_zero hx (Nat.ne_of_gt (two_pow_pos _)) hn

end Magnitude
end GameContent
