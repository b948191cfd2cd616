import GameContent.Proofs.Decimal.Numerals
import GameContent.Proofs.Text.Trimming
import GameContent.Value.Reading
import GameContent.Value.Rendering

/-!
# `Proofs.Value.Coercion` — which texts become which values

A raw text is tried as a truth value, as an integer and as a float, in this order, and the first
reading that fits is taken. `Value.Means` gives the outcome without the order: the languages of the
truth values and of the numbers are apart (`FloatNumeral.not_truthWord`), every integer numeral is
also a float numeral (`IntegerNumeral.exists_floatNumeral`), and of the integers just those of 64
signed bits are kept as integers.
-/

namespace GameContent

/-! ## Truth values -/

/-- The word of a truth value, in any case. -/
def TruthWord (b : Bool) (cs : List Char) : Prop := InAnyCase (boolText b) cs

theorem map_toLower_eq_true_iff {cs : List Char} :
    cs.map Char.toLower = ['t', 'r', 'u', 'e'] ↔ TruthWord true cs :=
  map_toLower_eq_iff "true" (by simp)

theorem map_toLower_eq_false_iff {cs : List Char} :
    cs.map Char.toLower = ['f', 'a', 'l', 's', 'e'] ↔ TruthWord false cs :=
  map_toLower_eq_iff "false" (by simp)

theorem readBool?_eq_some_iff {cs : List Char} {b : Bool} :
    Value.readBool? cs = some b ↔ TruthWord b cs := by
  unfold Value.readBool?
  constructor
  · intro h
    dsimp only at h
    split at h
    · next hname =>
      obtain rfl := Option.some.inj h
      exact map_toLower_eq_true_iff.1 hname
    · split at h
      · next hname =>
        obtain rfl := Option.some.inj h
        exact map_toLower_eq_false_iff.1 hname
      · exact absurd h (by simp)
  · intro h
    cases b with
    | true =>
      rw [← map_toLower_eq_true_iff] at h
      simp [h]
    | false =>
      rw [← map_toLower_eq_false_iff] at h
      simp [h]

theorem TruthWord.unsigned {b : Bool} {cs : List Char} (h : TruthWord b cs) : Unsigned cs := by
  cases b with
  | true => exact InAnyCase.unsigned h (by simp [boolText])
  | false => exact InAnyCase.unsigned h (by simp [boolText])

/-- Words of different letters are different in any case. -/
theorem TruthWord.not_name {b : Bool} {cs : List Char} (h : TruthWord b cs) :
    ¬(InAnyCase "inf" cs ∨ InAnyCase "infinity" cs) ∧ ¬InAnyCase "nan" cs := by
  rw [← map_toLower_eq_inf_iff, ← map_toLower_eq_nan_iff]
  cases b with
  | true => simp [map_toLower_eq_true_iff.2 h]
  | false => simp [map_toLower_eq_false_iff.2 h]

theorem TruthWord.not_decimal {b : Bool} {cs : List Char} (h : TruthWord b cs) (d : Decimal) :
    ¬DecimalNumeral cs d := by
  cases b with
  | true => exact InAnyCase.not_decimal h (by simp [boolText]) d
  | false => exact InAnyCase.not_decimal h (by simp [boolText]) d

/-- A text behind a sign is not unsigned, so an unsigned text has no sign in front. -/
theorem Sign.eq_nil_of_unsigned {negative : Bool} {sign cs : List Char} (hsign : Sign negative sign)
    (h : Unsigned (sign ++ cs)) : sign = [] := by
  cases hsign with
  | none => rfl
  | plus => exact absurd rfl h.1
  | minus => exact absurd rfl h.2

/-- No numeral is the word of a truth value. -/
theorem FloatNumeral.not_truthWord {cs : List Char} {x : Binary64} (h : FloatNumeral cs x)
    (b : Bool) : ¬TruthWord b cs := by
  intro hword
  cases h with
  | infinity hsign hname =>
    obtain rfl := hsign.eq_nil_of_unsigned hword.unsigned
    exact hword.not_name.1 hname
  | nan hsign hname =>
    obtain rfl := hsign.eq_nil_of_unsigned hword.unsigned
    exact hword.not_name.2 hname
  | decimal hsign hbody =>
    obtain rfl := hsign.eq_nil_of_unsigned hword.unsigned
    exact hword.not_decimal _ hbody

/-! ## Integers -/

/-- The integer has 64 bits, one of them its sign. -/
def FitsInt64 (n : Int) : Prop := -9223372036854775808 ≤ n ∧ n ≤ 9223372036854775807

instance (n : Int) : Decidable (FitsInt64 n) :=
  inferInstanceAs (Decidable (_ ∧ _))

theorem fitsInt64_toInt (n : Int64) : FitsInt64 n.toInt :=
  ⟨n.le_toInt, Int.le_of_lt_add_one n.toInt_lt⟩

theorem toInt_ofInt_of_fits {n : Int} (h : FitsInt64 n) : (Int64.ofInt n).toInt = n :=
  Int64.toInt_ofInt_of_le h.1 (Int.lt_add_one_of_le h.2)

/-- Integers are read from the integer numerals of 64 bits. -/
theorem readInt64?_eq_some_iff {cs : List Char} {m : Int64} :
    readInt64? cs = some m ↔ IntegerNumeral cs m.toInt := by
  unfold readInt64?
  constructor
  · intro h
    split at h
    · next n hn =>
      split at h
      · next hfits =>
        obtain rfl := Option.some.inj h
        rw [toInt_ofInt_of_fits hfits]
        exact readInteger?_eq_some_iff.1 hn
      · exact absurd h (by simp)
    · exact absurd h (by simp)
  · intro h
    rw [readInteger?_eq_some_iff.2 h]
    show (if FitsInt64 m.toInt then some (Int64.ofInt m.toInt) else none) = some m
    rw [if_pos (fitsInt64_toInt m), Int64.ofInt_toInt]

theorem readInt64?_eq_none_iff {cs : List Char} :
    readInt64? cs = none ↔ ∀ n, IntegerNumeral cs n → ¬FitsInt64 n := by
  rw [Option.eq_none_iff_forall_ne_some]
  constructor
  · intro h n hn hfits
    refine h (Int64.ofInt n) (readInt64?_eq_some_iff.2 ?_)
    rwa [toInt_ofInt_of_fits hfits]
  · intro h m hm
    exact h _ (readInt64?_eq_some_iff.1 hm) (fitsInt64_toInt m)

/-- Every integer numeral is the numeral of a float. -/
theorem IntegerNumeral.exists_floatNumeral {cs : List Char} {n : Int} (h : IntegerNumeral cs n) :
    ∃ x, FloatNumeral cs x := by
  obtain ⟨negative, sign, digits, hsign, rfl, hdecimal⟩ := h.exists_decimal
  exact ⟨_, .decimal hsign hdecimal⟩

/-! ## Blanks

No numeral has a blank, so trimming leaves it as it is. -/

/-- The text has no blanks. -/
def BlankFree (cs : List Char) : Prop := ∀ c ∈ cs, Text.isBlank c = false

theorem blankFree_append {as bs : List Char} : BlankFree (as ++ bs) ↔ BlankFree as ∧ BlankFree bs :=
  List.forall_mem_append

theorem blankFree_nil : BlankFree [] := by simp [BlankFree]

theorem blankFree_cons {c : Char} {cs : List Char} :
    BlankFree (c :: cs) ↔ Text.isBlank c = false ∧ BlankFree cs := List.forall_mem_cons

theorem Digits.blankFree {cs : List Char} (h : Digits cs) : BlankFree cs :=
  fun c hc => Text.isBlank_of_isDigit (h c hc)

theorem Sign.blankFree {negative : Bool} {sign : List Char} (h : Sign negative sign) :
    BlankFree sign := by
  cases h with
  | none => exact blankFree_nil
  | plus => exact blankFree_cons.2 ⟨by decide, blankFree_nil⟩
  | minus => exact blankFree_cons.2 ⟨by decide, blankFree_nil⟩

theorem IntegerNumeral.blankFree {cs : List Char} {n : Int} (h : IntegerNumeral cs n) :
    BlankFree cs := by
  obtain ⟨hsign, hdigits, -⟩ := h
  exact blankFree_append.2 ⟨hsign.blankFree, hdigits.blankFree⟩

theorem FractionPart.blankFree {cs digits : List Char} (h : FractionPart cs digits) :
    BlankFree cs := by
  cases h with
  | none => exact blankFree_nil
  | point hdigits => exact blankFree_cons.2 ⟨by decide, hdigits.blankFree⟩

theorem ExponentPart.blankFree {cs : List Char} {e : Int} (h : ExponentPart cs e) :
    BlankFree cs := by
  cases h with
  | none => exact blankFree_nil
  | letter hc he =>
    refine blankFree_cons.2 ⟨?_, he.blankFree⟩
    rcases hc with rfl | rfl <;> decide

theorem DecimalNumeral.blankFree {cs : List Char} {d : Decimal} (h : DecimalNumeral cs d) :
    BlankFree cs := by
  obtain ⟨hwhole, hpoint, -, hexponent⟩ := h
  have hrest := blankFree_append.2 ⟨hpoint.blankFree, hexponent.blankFree⟩
  exact blankFree_append.2 ⟨hwhole.blankFree, hrest⟩

theorem InAnyCase.blankFree {word : String} {cs : List Char} (h : InAnyCase word cs)
    (hword : ∀ w ∈ word.toList, Text.isBlank w = false ∧ Text.isBlank w.toUpper = false) :
    BlankFree cs := by
  unfold InAnyCase at h
  generalize word.toList = ws at h hword
  induction h with
  | nil => exact blankFree_nil
  | cons hletter _ ih =>
    obtain ⟨hw, hws⟩ := List.forall_mem_cons.1 hword
    refine blankFree_cons.2 ⟨?_, ih hws⟩
    rcases hletter with rfl | rfl
    · exact hw.1
    · exact hw.2

theorem FloatNumeral.trim_eq {cs : List Char} {x : Binary64} (h : FloatNumeral cs x) :
    Text.trim cs = cs := by
  refine Text.trim_eq_self ?_
  cases h with
  | infinity hsign hname =>
    refine blankFree_append.2 ⟨hsign.blankFree, ?_⟩
    rcases hname with hname | hname
    · exact hname.blankFree (by simp; decide)
    · exact hname.blankFree (by simp; decide)
  | nan hsign hname =>
    exact blankFree_append.2 ⟨hsign.blankFree, hname.blankFree (by simp; decide)⟩
  | decimal hsign hbody => exact blankFree_append.2 ⟨hsign.blankFree, hbody.blankFree⟩

/-! ## All values -/

/-- What a text without blanks at its ends means: a truth value, an integer of 64 bits, a float
    that is not such an integer, or else itself. -/
inductive Value.Means (cs : List Char) : Value → Prop where
  | bool {b : Bool} (h : TruthWord b cs) : Means cs (.bool b)
  | int {m : Int64} (h : IntegerNumeral cs m.toInt) : Means cs (.int m)
  | float {x : Binary64} (h : FloatNumeral cs x)
      (hint : ∀ n, IntegerNumeral cs n → ¬FitsInt64 n) : Means cs (.float x)
  | str (hbool : ∀ b, ¬TruthWord b cs) (hfloat : ∀ x, ¬FloatNumeral cs x) :
      Means cs (.str (String.ofList cs))

namespace Value

variable {cs : List Char}

/-! A reading that fails leaves the text to the next one. -/

theorem readBool?_eq_none (h : ∀ b, ¬TruthWord b cs) : readBool? cs = none := by
  refine Option.eq_none_iff_forall_ne_some.2 ?_
  intro b hb
  exact h b (readBool?_eq_some_iff.1 hb)

theorem read?_eq_none (h : ∀ x, ¬FloatNumeral cs x) : Binary64.read? cs = none := by
  refine Option.eq_none_iff_forall_ne_some.2 ?_
  intro x hx
  exact h x (Binary64.read?_eq_some_iff.1 hx)

/-- The value that is read is what the text means. -/
theorem means_ofTrimmed (cs : List Char) : Means cs (ofTrimmed cs) := by
  unfold ofTrimmed
  split
  · next b hb => exact .bool (readBool?_eq_some_iff.1 hb)
  · next hbool =>
    split
    · next m hm => exact .int (readInt64?_eq_some_iff.1 hm)
    · next hint =>
      split
      · next x hx => exact .float (Binary64.read?_eq_some_iff.1 hx) (readInt64?_eq_none_iff.1 hint)
      · next hfloat =>
        constructor
        · intro b hb
          rw [readBool?_eq_some_iff.2 hb] at hbool
          exact absurd hbool (by simp)
        · intro x hx
          rw [Binary64.read?_eq_some_iff.2 hx] at hfloat
          exact absurd hfloat (by simp)

/-- What the text means is the value that is read. -/
theorem Means.ofTrimmed_eq {v : Value} (h : Means cs v) : ofTrimmed cs = v := by
  unfold ofTrimmed
  cases h with
  | bool h => rw [readBool?_eq_some_iff.2 h]
  | int h =>
    obtain ⟨x, hx⟩ := h.exists_floatNumeral
    rw [readBool?_eq_none hx.not_truthWord, readInt64?_eq_some_iff.2 h]
  | float h hint =>
    rw [readBool?_eq_none h.not_truthWord, readInt64?_eq_none_iff.2 hint,
      Binary64.read?_eq_some_iff.2 h]
  | str hbool hfloat =>
    -- What is no float is no integer either.
    have hint : ∀ n, IntegerNumeral cs n → ¬FitsInt64 n := by
      intro n hn _
      obtain ⟨x, hx⟩ := hn.exists_floatNumeral
      exact hfloat x hx
    rw [readBool?_eq_none hbool, readInt64?_eq_none_iff.2 hint, read?_eq_none hfloat]

/-- **One meaning.** A text has the value that it means. -/
theorem ofTrimmed_eq_iff {v : Value} : ofTrimmed cs = v ↔ Means cs v := by
  constructor
  · rintro rfl
    exact means_ofTrimmed _
  · exact Means.ofTrimmed_eq

/-! ## Numerals, written out -/

theorem ofText_ofList (h : Text.trim cs = cs) : ofText (String.ofList cs) = ofTrimmed cs := by
  show ofTrimmed (Text.trim (String.ofList cs).toList) = _
  rw [String.toList_ofList, h]

theorem ofText_of_integerNumeral {m : Int64} (h : IntegerNumeral cs m.toInt) :
    ofText (String.ofList cs) = .int m := by
  obtain ⟨x, hx⟩ := h.exists_floatNumeral
  rw [ofText_ofList hx.trim_eq, ofTrimmed_eq_iff]
  exact .int h

theorem ofText_of_floatNumeral {x : Binary64} (h : FloatNumeral cs x)
    (hint : ∀ n, IntegerNumeral cs n → ¬FitsInt64 n) : ofText (String.ofList cs) = .float x := by
  rw [ofText_ofList h.trim_eq, ofTrimmed_eq_iff]
  exact .float h hint

/-- An integer is read back from its text. -/
theorem ofText_render_int (n : Int64) : ofText (Value.int n).render = .int n :=
  ofText_of_integerNumeral (integerNumeral_intChars n.toInt)

/-! ## The value of a text, kind by kind -/

/-- What is promised of the value of a text without blanks at its ends: of each kind, which texts
    have a value of it, and which value that is. -/
structure ReadsByGrammar (cs : List Char) (v : Value) : Prop where
  /-- Truth values are their words. -/
  bool : ∀ b, v = .bool b ↔ TruthWord b cs
  /-- Integers are the integer numerals of 64 bits. -/
  int : ∀ m : Int64, v = .int m ↔ IntegerNumeral cs m.toInt
  /-- An integer numeral of more bits is a float. -/
  wide : ∀ n, IntegerNumeral cs n → ¬FitsInt64 n → ∃ x, v = .float x
  /-- Floats are all the other float numerals. -/
  float : ∀ x, v = .float x ↔ FloatNumeral cs x ∧ ∀ n, IntegerNumeral cs n → ¬FitsInt64 n
  /-- Everything else is itself. -/
  str : ∀ s, v = .str s ↔ s = String.ofList cs ∧ (∀ b, ¬TruthWord b cs) ∧ ∀ x, ¬FloatNumeral cs x
  /-- No text is null. -/
  not_null : v ≠ .null
  /-- No text is a reference. -/
  not_ref : ∀ r, v ≠ .ref r
  /-- No text is a list. -/
  not_list : ∀ vs, v ≠ .list vs

theorem readsByGrammar_ofTrimmed (cs : List Char) : ReadsByGrammar cs (ofTrimmed cs) := by
  constructor
  · intro b
    rw [ofTrimmed_eq_iff]
    exact ⟨fun | .bool h => h, .bool⟩
  · intro m
    rw [ofTrimmed_eq_iff]
    exact ⟨fun | .int h => h, .int⟩
  · intro n hn hwide
    obtain ⟨x, hx⟩ := hn.exists_floatNumeral
    refine ⟨x, ofTrimmed_eq_iff.2 (.float hx ?_)⟩
    intro m hm
    rwa [hm.unique hn]
  · intro x
    rw [ofTrimmed_eq_iff]
    exact ⟨fun | .float h hint => ⟨h, hint⟩, fun ⟨h, hint⟩ => .float h hint⟩
  · intro s
    rw [ofTrimmed_eq_iff]
    exact ⟨fun | .str hbool hfloat => ⟨rfl, hbool, hfloat⟩,
      fun ⟨hs, hbool, hfloat⟩ => hs ▸ .str hbool hfloat⟩
  · rw [Ne, ofTrimmed_eq_iff]
    rintro ⟨⟩
  · intro r
    rw [Ne, ofTrimmed_eq_iff]
    rintro ⟨⟩
  · intro vs
    rw [Ne, ofTrimmed_eq_iff]
    rintro ⟨⟩

/-- **Coercion follows the grammar.** The value of every raw text is the one that the grammar gives
    to the text without the blanks at its ends, and every integer is the value of its own text. -/
theorem ofText_readsByGrammar :
    (∀ raw : String, ReadsByGrammar (Text.trim raw.toList) (ofText raw))
      ∧ ∀ n : Int64, ofText (Value.int n).render = .int n :=
  ⟨fun _ => readsByGrammar_ofTrimmed _, ofText_render_int⟩

/-- One above the greatest integer of 64 bits, a numeral is a float. -/
theorem ofText_two_pow_63 : ∃ x, ofText " +9223372036854775808" = .float x := by
  have hnumeral : IntegerNumeral (Text.trim " +9223372036854775808".toList) 9223372036854775808 :=
    readInteger?_eq_some_iff.1 (by decide +kernel)
  exact (ofText_readsByGrammar.1 _).wide _ hnumeral (by unfold FitsInt64; omega)

end Value
end GameContent
