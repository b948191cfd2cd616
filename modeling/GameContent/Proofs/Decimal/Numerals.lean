import GameContent.Decimal.Layout
import GameContent.Decimal.Numeral
import Mathlib

/-!
# `Proofs.Decimal.Numerals` — the texts that are read as numbers

The readers of `Decimal.Numeral` take a text apart from the left, each step as far as it goes. Here
the texts that they accept are given the other way round, by how they are put together, with the
number that each of them denotes.

## Contents
- **Grammar.** `Sign`, `IntegerNumeral`, `FractionPart`, `ExponentPart`, `DecimalNumeral`,
  `InAnyCase` and `FloatNumeral`.
- **Pieces.** `splitSign_append` and `splitDigits_append` say where a reader cuts a text.
- **Readers.** `readInteger?_eq_some_iff`, `readDecimal?_eq_some_iff` and
  `Binary64.read?_eq_some_iff`: a reader accepts exactly the texts of its grammar.
-/

namespace GameContent

/-! ## The grammar -/

/-- A text of decimal digits. -/
def Digits (cs : List Char) : Prop := ∀ c ∈ cs, c.isDigit = true

/-- An optional sign, and whether it is a minus. -/
inductive Sign : Bool → List Char → Prop where
  | none : Sign false []
  | plus : Sign false ['+']
  | minus : Sign true ['-']

/-- An optional sign and decimal digits, at least one. -/
inductive IntegerNumeral : List Char → Int → Prop where
  | mk {negative : Bool} {sign digits : List Char} (hsign : Sign negative sign)
      (hdigits : Digits digits) (hne : digits ≠ []) :
      IntegerNumeral (sign ++ digits) (signedInt negative (digitsValue digits))

/-- Nothing, or a point with digits behind it; the digits are given besides. -/
inductive FractionPart : List Char → List Char → Prop where
  | none : FractionPart [] []
  | point {digits : List Char} (hdigits : Digits digits) : FractionPart ('.' :: digits) digits

/-- Nothing, or a letter `e` of either case with an integer behind it. -/
inductive ExponentPart : List Char → Int → Prop where
  | none : ExponentPart [] 0
  | letter {c : Char} {cs : List Char} {e : Int} (hc : c = 'e' ∨ c = 'E')
      (he : IntegerNumeral cs e) : ExponentPart (c :: cs) e

/-- Digits with an optional point, at least one digit in all, and an optional exponent. -/
inductive DecimalNumeral : List Char → Decimal → Prop where
  | mk {whole point fraction exponent : List Char} {e : Int} (hwhole : Digits whole)
      (hpoint : FractionPart point fraction) (hne : whole ++ fraction ≠ [])
      (hexponent : ExponentPart exponent e) :
      DecimalNumeral (whole ++ (point ++ exponent))
        ⟨digitsValue (whole ++ fraction), e - fraction.length⟩

/-- The letters of a word, each of them small or capital. -/
def InAnyCase (word : String) (cs : List Char) : Prop :=
  List.Forall₂ (fun w c => c = w ∨ c = w.toUpper) word.toList cs

/-- An optional sign and the name of the infinity, the name of NaN, or a decimal. -/
inductive FloatNumeral : List Char → Binary64 → Prop where
  | infinity {negative : Bool} {sign name : List Char} (hsign : Sign negative sign)
      (hname : InAnyCase "inf" name ∨ InAnyCase "infinity" name) :
      FloatNumeral (sign ++ name) (.infinite negative)
  | nan {negative : Bool} {sign name : List Char} (hsign : Sign negative sign)
      (hname : InAnyCase "nan" name) : FloatNumeral (sign ++ name) .nan
  | decimal {negative : Bool} {sign body : List Char} {d : Decimal} (hsign : Sign negative sign)
      (hbody : DecimalNumeral body d) : FloatNumeral (sign ++ body) (d.toBinary64 negative)

/-! ## Cutting off signs and digits -/

/-- The text does not begin with a sign. -/
def Unsigned (cs : List Char) : Prop := cs.head? ≠ some '+' ∧ cs.head? ≠ some '-'

instance (cs : List Char) : Decidable (Unsigned cs) :=
  inferInstanceAs (Decidable (_ ∧ _))

theorem splitSign_append {negative : Bool} {sign cs : List Char} (hsign : Sign negative sign)
    (hcs : Unsigned cs) : splitSign (sign ++ cs) = (negative, cs) := by
  cases hsign with
  | none =>
    show splitSign cs = _
    unfold splitSign
    split
    · exact absurd rfl hcs.1
    · exact absurd rfl hcs.2
    · rfl
  | plus => rfl
  | minus => rfl

theorem exists_sign (cs : List Char) :
    ∃ sign, Sign (splitSign cs).1 sign ∧ cs = sign ++ (splitSign cs).2 := by
  unfold splitSign
  split
  · exact ⟨_, Sign.plus, rfl⟩
  · exact ⟨_, Sign.minus, rfl⟩
  · exact ⟨_, Sign.none, rfl⟩

theorem digits_append {as bs : List Char} : Digits (as ++ bs) ↔ Digits as ∧ Digits bs :=
  List.forall_mem_append

/-- A text of digits, if there are any, and of anything that is neither a digit nor a sign. -/
theorem Digits.unsigned_append {ds cs : List Char} (hds : Digits ds) (hcs : Unsigned cs) :
    Unsigned (ds ++ cs) := by
  cases ds with
  | nil => exact hcs
  | cons d ds =>
    have hd : d.isDigit = true := hds d List.mem_cons_self
    constructor
    · intro h
      obtain rfl : d = '+' := Option.some.inj h
      exact absurd hd (by decide)
    · intro h
      obtain rfl : d = '-' := Option.some.inj h
      exact absurd hd (by decide)

theorem Digits.unsigned {ds : List Char} (hds : Digits ds) : Unsigned ds := by
  have h : Unsigned (ds ++ []) := hds.unsigned_append (by decide)
  rwa [List.append_nil] at h

theorem splitDigits_append {ds cs : List Char} (hds : Digits ds)
    (hcs : ∀ c ∈ cs.head?, c.isDigit = false) : splitDigits (ds ++ cs) = (ds, cs) := by
  have hrest : cs.takeWhile Char.isDigit = [] ∧ cs.dropWhile Char.isDigit = cs := by
    cases cs with
    | nil => exact ⟨rfl, rfl⟩
    | cons c cs =>
      have hc : ¬c.isDigit = true := by
        rw [hcs c rfl]
        simp
      exact ⟨List.takeWhile_cons_of_neg hc, List.dropWhile_cons_of_neg hc⟩
  rw [splitDigits, List.takeWhile_append_of_pos hds, List.dropWhile_append_of_pos hds, hrest.1,
    hrest.2, List.append_nil]

/-- The digits at the beginning of a text, and the rest, which does not begin with a digit. -/
theorem exists_digits (cs : List Char) :
    ∃ ds rest, Digits ds ∧ (∀ c ∈ rest.head?, c.isDigit = false) ∧ cs = ds ++ rest
      ∧ splitDigits cs = (ds, rest) := by
  refine ⟨cs.takeWhile Char.isDigit, cs.dropWhile Char.isDigit, ?_, ?_, ?_, rfl⟩
  · intro c hc
    exact List.mem_takeWhile_imp hc
  · intro c hc
    have hnot := List.head?_dropWhile_not Char.isDigit cs
    rw [Option.mem_def.1 hc] at hnot
    exact hnot
  · exact List.takeWhile_append_dropWhile.symm

/-! ## Integers -/

theorem readDigits?_eq_some_iff {cs : List Char} {n : Nat} :
    readDigits? cs = some n ↔ Digits cs ∧ cs ≠ [] ∧ n = digitsValue cs := by
  unfold readDigits?
  by_cases h : (!cs.isEmpty && cs.all Char.isDigit) = true
  · rw [if_pos h]
    simp only [Bool.and_eq_true, Bool.not_eq_true', List.isEmpty_eq_false_iff,
      List.all_eq_true] at h
    constructor
    · intro hn
      exact ⟨h.2, h.1, (Option.some.inj hn).symm⟩
    · rintro ⟨-, -, rfl⟩
      rfl
  · rw [if_neg h]
    constructor
    · intro hn
      exact absurd hn (by simp)
    · rintro ⟨hdigits, hne, -⟩
      refine absurd ?_ h
      simp only [Bool.and_eq_true, Bool.not_eq_true', List.isEmpty_eq_false_iff, List.all_eq_true]
      exact ⟨hne, hdigits⟩

theorem readInteger?_eq (cs : List Char) :
    readInteger? cs = (readDigits? (splitSign cs).2).map (signedInt (splitSign cs).1) := rfl

/-- **Integers** are read from their numerals. -/
theorem readInteger?_eq_some_iff {cs : List Char} {n : Int} :
    readInteger? cs = some n ↔ IntegerNumeral cs n := by
  rw [readInteger?_eq]
  constructor
  · intro h
    obtain ⟨sign, hsign, hcs⟩ := exists_sign cs
    obtain ⟨m, hm, rfl⟩ := Option.map_eq_some_iff.1 h
    obtain ⟨hdigits, hne, rfl⟩ := readDigits?_eq_some_iff.1 hm
    have hnumeral := IntegerNumeral.mk hsign hdigits hne
    rwa [← hcs] at hnumeral
  · rintro ⟨hsign, hdigits, hne⟩
    rw [splitSign_append hsign hdigits.unsigned, readDigits?_eq_some_iff.2 ⟨hdigits, hne, rfl⟩]
    rfl

theorem IntegerNumeral.isDigit_or_sign {cs : List Char} {n : Int} (h : IntegerNumeral cs n) :
    ∀ c ∈ cs, c.isDigit = true ∨ c = '+' ∨ c = '-' := by
  obtain ⟨hsign, hdigits, -⟩ := h
  intro c hc
  rcases List.mem_append.1 hc with hc | hc
  · cases hsign with
    | none => exact absurd hc List.not_mem_nil
    | plus => exact .inr (.inl (List.mem_singleton.1 hc))
    | minus => exact .inr (.inr (List.mem_singleton.1 hc))
  · exact .inl (hdigits c hc)

/-- A numeral denotes one integer. -/
theorem IntegerNumeral.unique {cs : List Char} {m n : Int} (hm : IntegerNumeral cs m)
    (hn : IntegerNumeral cs n) : m = n :=
  Option.some.inj ((readInteger?_eq_some_iff.2 hm).symm.trans (readInteger?_eq_some_iff.2 hn))

theorem sign_signChars (negative : Bool) : Sign negative (signChars negative) := by
  cases negative with
  | false => exact .none
  | true => exact .minus

/-- Written out, an integer is a numeral of its own. -/
theorem integerNumeral_intChars (n : Int) : IntegerNumeral (intChars n) n := by
  have hdigits : Digits (Nat.toDigits 10 n.natAbs) := fun c hc =>
    Nat.isDigit_of_mem_toDigits (by decide) (by decide) hc
  have hvalue : signedInt (decide (n < 0)) (digitsValue (Nat.toDigits 10 n.natAbs)) = n := by
    unfold signedInt digitsValue
    rw [Nat.ofDigitChars_ten_toDigits]
    by_cases h : n < 0
    · rw [if_pos (decide_eq_true h)]
      omega
    · rw [if_neg (by simpa using h)]
      omega
  have h := IntegerNumeral.mk (sign_signChars (n < 0)) hdigits Nat.toDigits_ne_nil
  rw [hvalue] at h
  exact h

/-! ## Decimals -/

theorem readExponent?_eq_some_iff {cs : List Char} {e : Int} :
    readExponent? cs = some e ↔ ExponentPart cs e := by
  cases cs with
  | nil =>
    constructor
    · intro h
      obtain rfl := Option.some.inj h
      exact .none
    · rintro ⟨⟩
      rfl
  | cons c cs =>
    show (if c = 'e' ∨ c = 'E' then readInteger? cs else none) = some e ↔ _
    by_cases hc : c = 'e' ∨ c = 'E'
    · rw [if_pos hc, readInteger?_eq_some_iff]
      constructor
      · exact .letter hc
      · rintro (_ | ⟨-, he⟩)
        exact he
    · rw [if_neg hc]
      constructor
      · intro h
        exact absurd h (by simp)
      · rintro (_ | ⟨hc', -⟩)
        exact absurd hc' hc

/-- An exponent part does not begin with a digit, a point or a sign. -/
theorem ExponentPart.of_mem_head? {cs : List Char} {e : Int} (h : ExponentPart cs e) :
    ∀ c ∈ cs.head?, c.isDigit = false ∧ c ≠ '.' ∧ c ≠ '+' ∧ c ≠ '-' := by
  cases h with
  | none => simp
  | letter hc _ =>
    intro c' hc'
    obtain rfl := Option.some.inj hc'
    rcases hc with rfl | rfl <;> decide

/-- Splits off a point and the digits behind it: the digits, and the rest. -/
def splitFraction : List Char → List Char × List Char
  | '.' :: cs => splitDigits cs
  | cs => ([], cs)

theorem splitFraction_append {point fraction rest : List Char}
    (hpoint : FractionPart point fraction)
    (hrest : ∀ c ∈ rest.head?, c.isDigit = false ∧ c ≠ '.') :
    splitFraction (point ++ rest) = (fraction, rest) := by
  cases hpoint with
  | none =>
    show splitFraction rest = _
    unfold splitFraction
    split
    · exact absurd rfl (hrest '.' rfl).2
    · rfl
  | point hdigits => exact splitDigits_append hdigits fun c hc => (hrest c hc).1

theorem exists_fraction (cs : List Char) :
    ∃ point fraction rest, FractionPart point fraction ∧ cs = point ++ rest
      ∧ splitFraction cs = (fraction, rest) := by
  unfold splitFraction
  split
  · obtain ⟨ds, rest, hdigits, -, hcs, hsplit⟩ := exists_digits _
    exact ⟨_, ds, rest, .point hdigits, congrArg _ hcs, hsplit⟩
  · exact ⟨[], [], _, .none, rfl, rfl⟩

theorem readDecimal?_eq (cs : List Char) :
    readDecimal? cs
      = if (splitDigits cs).1 ++ (splitFraction (splitDigits cs).2).1 = [] then none
        else (readExponent? (splitFraction (splitDigits cs).2).2).map fun e =>
          ⟨digitsValue ((splitDigits cs).1 ++ (splitFraction (splitDigits cs).2).1),
            e - (splitFraction (splitDigits cs).2).1.length⟩ := by
  have hempty : ∀ as bs : List Char, (as.isEmpty && bs.isEmpty) = true ↔ as ++ bs = [] := by
    simp
  simp only [← hempty]
  rfl

/-- **Decimals** are read from their numerals. -/
theorem readDecimal?_eq_some_iff {cs : List Char} {d : Decimal} :
    readDecimal? cs = some d ↔ DecimalNumeral cs d := by
  rw [readDecimal?_eq]
  constructor
  · intro h
    obtain ⟨whole, rest, hwhole, -, hcs, hdigits⟩ := exists_digits cs
    obtain ⟨point, fraction, tail, hpoint, hrest, hfraction⟩ := exists_fraction rest
    rw [hdigits, hfraction] at h
    by_cases hne : whole ++ fraction = []
    · rw [if_pos hne] at h
      exact absurd h (by simp)
    · rw [if_neg hne] at h
      obtain ⟨e, he, rfl⟩ := Option.map_eq_some_iff.1 h
      rw [hcs, hrest]
      exact .mk hwhole hpoint hne (readExponent?_eq_some_iff.1 he)
  · rintro ⟨hwhole, hpoint, hne, hexponent⟩
    rename_i whole point fraction exponent e
    have hhead := hexponent.of_mem_head?
    have hrest : ∀ c ∈ (point ++ exponent).head?, c.isDigit = false := by
      cases hpoint with
      | none => exact fun c hc => (hhead c hc).1
      | point _ =>
        intro c hc
        obtain rfl := Option.some.inj hc
        decide
    rw [splitDigits_append hwhole hrest,
      splitFraction_append hpoint fun c hc => ⟨(hhead c hc).1, (hhead c hc).2.1⟩, if_neg hne,
      readExponent?_eq_some_iff.2 hexponent]
    rfl

/-- A decimal begins with a digit or a point, so never with a sign. -/
theorem DecimalNumeral.exists_cons {cs : List Char} {d : Decimal} (h : DecimalNumeral cs d) :
    ∃ c rest, cs = c :: rest ∧ (c.isDigit = true ∨ c = '.') := by
  obtain ⟨hwhole, hpoint, hne, -⟩ := h
  rename_i whole point fraction exponent e
  cases whole with
  | cons c whole => exact ⟨c, _, rfl, .inl (hwhole c List.mem_cons_self)⟩
  | nil =>
    cases hpoint with
    | none => exact absurd rfl hne
    | point _ => exact ⟨'.', _, rfl, .inr rfl⟩

theorem DecimalNumeral.unsigned {cs : List Char} {d : Decimal} (h : DecimalNumeral cs d) :
    Unsigned cs := by
  obtain ⟨c, rest, rfl, hc⟩ := h.exists_cons
  constructor
  · intro hplus
    obtain rfl : c = '+' := Option.some.inj hplus
    exact absurd hc (by decide)
  · intro hminus
    obtain rfl : c = '-' := Option.some.inj hminus
    exact absurd hc (by decide)

/-- An integer numeral is a decimal. -/
theorem IntegerNumeral.exists_decimal {cs : List Char} {n : Int} (h : IntegerNumeral cs n) :
    ∃ negative sign digits, Sign negative sign ∧ cs = sign ++ digits
      ∧ DecimalNumeral digits ⟨digitsValue digits, 0⟩ := by
  obtain ⟨hsign, hdigits, hne⟩ := h
  rename_i negative sign digits
  have hdecimal := DecimalNumeral.mk hdigits .none (by rwa [List.append_nil]) .none
  rw [List.append_nil, List.append_nil] at hdecimal
  exact ⟨negative, sign, digits, hsign, rfl, by simpa using hdecimal⟩

/-! ## Words -/

/-- The letters that become a small one are the small one and the capital one. -/
theorem toLower_eq_iff {w c : Char} (hw : w.toLower = w) :
    c.toLower = w ↔ c = w ∨ c = w.toUpper := by
  constructor
  · rintro rfl
    by_cases hc : c.isUpper = true
    · right
      rw [Char.toUpper_toLower_eq_toUpper, Char.toUpper_eq_of_not_isLower]
      exact Char.not_isLower_of_isUpper hc
    · left
      rw [Char.toLower_eq_of_not_isUpper hc]
  · rintro (rfl | rfl)
    · exact hw
    · rw [Char.toLower_toUpper_eq_toLower, hw]

theorem map_toLower_eq_iff (word : String) (hword : ∀ w ∈ word.toList, w.toLower = w)
    {cs : List Char} : cs.map Char.toLower = word.toList ↔ InAnyCase word cs := by
  unfold InAnyCase
  generalize word.toList = ws at hword
  induction ws generalizing cs with
  | nil => simp
  | cons w ws ih =>
    obtain ⟨hw, hws⟩ := List.forall_mem_cons.1 hword
    rw [List.map_eq_cons_iff, List.forall₂_cons_left_iff]
    constructor
    · rintro ⟨c, rest, rfl, hc, hrest⟩
      exact ⟨c, rest, (toLower_eq_iff hw).1 hc, (ih hws).1 hrest, rfl⟩
    · rintro ⟨c, rest, hc, hrest, rfl⟩
      exact ⟨c, rest, rfl, (toLower_eq_iff hw).2 hc, (ih hws).2 hrest⟩

/-- A word and a decimal never begin with the same character. -/
theorem InAnyCase.not_decimal {word : String} {cs : List Char} (h : InAnyCase word cs)
    (hword : ∀ w ∈ word.toList, w.isDigit = false ∧ w.toUpper.isDigit = false
      ∧ w ≠ '.' ∧ w.toUpper ≠ '.') (d : Decimal) : ¬DecimalNumeral cs d := by
  intro hd
  obtain ⟨c, rest, rfl, hc⟩ := hd.exists_cons
  obtain ⟨w, ws, hcw, -, hws⟩ := List.forall₂_cons_right_iff.1 h
  obtain ⟨hlow, hup, hlowpoint, huppoint⟩ := hword w (hws ▸ List.mem_cons_self)
  rcases hcw with rfl | rfl <;> rcases hc with hc | hc
  · rw [hc] at hlow
    exact absurd hlow (by simp)
  · exact hlowpoint hc
  · rw [hc] at hup
    exact absurd hup (by simp)
  · exact huppoint hc

theorem InAnyCase.unsigned {word : String} {cs : List Char} (h : InAnyCase word cs)
    (hword : ∀ w ∈ word.toList, w ≠ '+' ∧ w.toUpper ≠ '+' ∧ w ≠ '-' ∧ w.toUpper ≠ '-') :
    Unsigned cs := by
  cases cs with
  | nil => decide
  | cons c cs =>
    obtain ⟨w, ws, hcw, -, hws⟩ := List.forall₂_cons_right_iff.1 h
    obtain ⟨hlow, hup, hlow', hup'⟩ := hword w (hws ▸ List.mem_cons_self)
    rcases hcw with rfl | rfl
    · exact ⟨fun hc => hlow (Option.some.inj hc), fun hc => hlow' (Option.some.inj hc)⟩
    · exact ⟨fun hc => hup (Option.some.inj hc), fun hc => hup' (Option.some.inj hc)⟩

/-! ## Floats -/

/-- The words that stand for floats, by the small letters that they are read as. -/
theorem map_toLower_eq_inf_iff {cs : List Char} :
    (cs.map Char.toLower = ['i', 'n', 'f']
        ∨ cs.map Char.toLower = ['i', 'n', 'f', 'i', 'n', 'i', 't', 'y'])
      ↔ InAnyCase "inf" cs ∨ InAnyCase "infinity" cs :=
  or_congr (map_toLower_eq_iff "inf" (by simp))
    (map_toLower_eq_iff "infinity" (by simp))

theorem map_toLower_eq_nan_iff {cs : List Char} :
    cs.map Char.toLower = ['n', 'a', 'n'] ↔ InAnyCase "nan" cs :=
  map_toLower_eq_iff "nan" (by simp)

/-- No decimal is one of these words. -/
theorem DecimalNumeral.not_name {cs : List Char} {d : Decimal} (h : DecimalNumeral cs d) :
    ¬(InAnyCase "inf" cs ∨ InAnyCase "infinity" cs) ∧ ¬InAnyCase "nan" cs := by
  refine ⟨?_, fun hname => hname.not_decimal (by simp) d h⟩
  rintro (hname | hname)
  · exact hname.not_decimal (by simp) d h
  · exact hname.not_decimal (by simp) d h

theorem readUnsigned?_infinity {cs : List Char}
    (h : InAnyCase "inf" cs ∨ InAnyCase "infinity" cs) (negative : Bool) :
    Binary64.readUnsigned? negative cs = some (.infinite negative) := by
  unfold Binary64.readUnsigned?
  exact if_pos (map_toLower_eq_inf_iff.2 h)

theorem readUnsigned?_nan {cs : List Char} (h : InAnyCase "nan" cs) (negative : Bool) :
    Binary64.readUnsigned? negative cs = some .nan := by
  have hname := map_toLower_eq_nan_iff.2 h
  unfold Binary64.readUnsigned?
  simp [hname]

theorem readUnsigned?_of_not_name {cs : List Char}
    (hinf : ¬(InAnyCase "inf" cs ∨ InAnyCase "infinity" cs)) (hnan : ¬InAnyCase "nan" cs)
    (negative : Bool) :
    Binary64.readUnsigned? negative cs = (readDecimal? cs).map (Decimal.toBinary64 negative) := by
  rw [← map_toLower_eq_inf_iff] at hinf
  rw [← map_toLower_eq_nan_iff] at hnan
  unfold Binary64.readUnsigned?
  simp only [if_neg hinf, if_neg hnan]

/-- **Floats** are read from their numerals. -/
theorem Binary64.read?_eq_some_iff {cs : List Char} {x : Binary64} :
    Binary64.read? cs = some x ↔ FloatNumeral cs x := by
  show readUnsigned? (splitSign cs).1 (splitSign cs).2 = some x ↔ _
  constructor
  · intro h
    obtain ⟨sign, hsign, hcs⟩ := exists_sign cs
    have hnumeral : FloatNumeral (sign ++ (splitSign cs).2) x := by
      by_cases hinf : InAnyCase "inf" (splitSign cs).2 ∨ InAnyCase "infinity" (splitSign cs).2
      · rw [readUnsigned?_infinity hinf] at h
        obtain rfl := Option.some.inj h
        exact .infinity hsign hinf
      · by_cases hnan : InAnyCase "nan" (splitSign cs).2
        · rw [readUnsigned?_nan hnan] at h
          obtain rfl := Option.some.inj h
          exact .nan hsign hnan
        · rw [readUnsigned?_of_not_name hinf hnan] at h
          obtain ⟨d, hd, rfl⟩ := Option.map_eq_some_iff.1 h
          exact .decimal hsign (readDecimal?_eq_some_iff.1 hd)
    rwa [← hcs] at hnumeral
  · intro h
    cases h with
    | infinity hsign hname =>
      have hunsigned : Unsigned _ := hname.elim (fun h => h.unsigned (by simp))
        fun h => h.unsigned (by simp)
      rw [splitSign_append hsign hunsigned]
      exact readUnsigned?_infinity hname _
    | nan hsign hname =>
      rw [splitSign_append hsign (hname.unsigned (by simp))]
      exact readUnsigned?_nan hname _
    | decimal hsign hbody =>
      rw [splitSign_append hsign hbody.unsigned,
        readUnsigned?_of_not_name hbody.not_name.1 hbody.not_name.2,
        readDecimal?_eq_some_iff.2 hbody]
      rfl

end GameContent
