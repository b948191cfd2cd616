import GameContent.Inspection
import GameContent.Proofs.Artifact.Reading
import GameContent.Proofs.Properties.Entries

/-!
# `Proofs.Artifact.Accumulation` — the fields of a block and its bag

The fields of a block are added to its bag one after the other. Adding looks at the value that is
there: a value that stands alone becomes the first item of a list, and a list grows. No value that
is read from a field is a list itself (`Value.isLiteral_ofChars`), so the shape of what is there
tells how many values came before, and nothing is lost.

## Contents
- `Value.gathered?` is the value of a key by all the values it occurs with;
  `Properties.gathered?_concat` is one field, `Properties.get?_appendAll` all of them.
- `FieldOf` takes a field apart as it is written.
- `parse_accumulates` says what a bag holds under the keys of its fields, `parse_typeKey` what it
  holds under the key of the name.
-/

namespace GameContent
open Text Block

/-! ## Values that are read from fields -/

namespace Value

/-- Whether the value is a truth value, a number or a text. -/
def isLiteral : Value → Bool
  | .bool _ | .int _ | .float _ | .str _ => true
  | _ => false

/-- The value of a raw text is never null, a reference or a list. -/
theorem isLiteral_ofChars (cs : List Char) : (ofChars cs).isLiteral = true := by
  unfold ofChars ofTrimmed
  cases readBool? (trim cs) with
  | some b => rfl
  | none =>
    cases readInt64? (trim cs) with
    | some n => rfl
    | none => cases Binary64.read? (trim cs) <;> rfl

/-- The value of a key that occurs with the given values: nothing, the only value, or a list. -/
def gathered? : List Value → Option Value
  | [] => none
  | [v] => some v
  | vs => some (.list vs)

/-- A value that is put together from literals is no null and no reference, and a list of literals
    if it is a list. -/
theorem of_gathered?_eq_some {vs : List Value} (hvs : ∀ v ∈ vs, v.isLiteral = true) {w : Value}
    (h : gathered? vs = some w) :
    w ≠ .null ∧ (∀ r, w ≠ .ref r) ∧ ∀ items, w = .list items → ∀ v ∈ items, ∀ us, v ≠ .list us := by
  match vs, h with
  | [v], h =>
    obtain rfl := Option.some.inj h
    have hv := hvs v List.mem_cons_self
    cases v <;> simp_all [isLiteral]
  | u :: v :: vs, h =>
    obtain rfl := Option.some.inj h
    refine ⟨by simp, by simp, ?_⟩
    intro items hitems w hw us hlist
    obtain rfl := Value.list.inj hitems
    have hliteral := hvs w hw
    rw [hlist] at hliteral
    exact absurd hliteral (by simp [isLiteral])

end Value

/-! ## Adding fields to a bag -/

namespace Properties

/-- **One more value** under a key. -/
theorem gathered?_concat {vs : List Value} (hvs : ∀ v ∈ vs, v.isLiteral = true) (v : Value) :
    Value.gathered? (vs ++ [v]) = some (accumulate v (Value.gathered? vs)) := by
  match vs with
  | [] => rfl
  | [u] =>
    have hu := hvs u List.mem_cons_self
    cases u with
    | list items => exact absurd hu (by simp [Value.isLiteral])
    | _ => rfl
  | u :: u' :: vs => rfl

/-- The bag with several fields added in order. -/
def appendAll (p : Properties) (fields : List (String × Value)) : Properties :=
  fields.foldl (fun p f => p.append f.1 f.2) p

/-- The values of the fields with a key. -/
def valuesAt (key : String) (fields : List (String × Value)) : List Value :=
  (fields.filter (·.1 = key)).map Prod.snd

theorem mem_valuesAt {key : String} {fields : List (String × Value)} {v : Value} :
    v ∈ valuesAt key fields ↔ (key, v) ∈ fields := by
  unfold valuesAt
  simp only [List.mem_map, List.mem_filter, decide_eq_true_eq]
  constructor
  · rintro ⟨f, ⟨hf, rfl⟩, rfl⟩
    exact hf
  · intro h
    exact ⟨(key, v), ⟨h, rfl⟩, rfl⟩

/-- **All fields.** A key has the values that it had and those of the fields with the key. -/
theorem get?_appendAll {p : Properties} {fields : List (String × Value)} {key : String}
    {vs : List Value} (hvs : ∀ v ∈ vs, v.isLiteral = true)
    (hfields : ∀ f ∈ fields, f.2.isLiteral = true) (h : p.get? key = Value.gathered? vs) :
    (p.appendAll fields).get? key = Value.gathered? (vs ++ valuesAt key fields) := by
  induction fields generalizing p vs with
  | nil =>
    rw [valuesAt, List.filter_nil, List.map_nil, List.append_nil]
    exact h
  | cons f fields ih =>
    obtain ⟨hf, hfields⟩ := List.forall_mem_cons.1 hfields
    show ((p.append f.1 f.2).appendAll fields).get? key = _
    by_cases hkey : f.1 = key
    · have hstep : (p.append f.1 f.2).get? key = Value.gathered? (vs ++ [f.2]) := by
        rw [gathered?_concat hvs, append, get?_upsert, if_pos hkey.symm, hkey, h]
      have hvs' : ∀ v ∈ vs ++ [f.2], v.isLiteral = true := by
        intro v hv
        rcases List.mem_append.1 hv with hv | hv
        · exact hvs v hv
        · rw [List.mem_singleton.1 hv]
          exact hf
      rw [ih hvs' hfields hstep, List.append_assoc, valuesAt, valuesAt,
        List.filter_cons_of_pos (by simpa using hkey)]
      rfl
    · have hstep : (p.append f.1 f.2).get? key = Value.gathered? vs := by
        rw [append, get?_upsert, if_neg fun he => hkey he.symm, h]
      rw [ih hvs hfields hstep, valuesAt, valuesAt, List.filter_cons_of_neg (by simpa using hkey)]

/-- New keys are added at the end, in the order in which they first occur. -/
theorem keys_appendAll (p : Properties) (fields : List (String × Value)) :
    (p.appendAll fields).keys = p.keys ++ firstOccurrences id p.keys (fields.map Prod.fst) :=
  keys_upsertAll p Prod.fst (fun f => accumulate f.2) fields

end Properties

namespace Block
open Properties

variable {name : List Char} {fields : List (String × Value)}

/-- **What a bag holds** under a key: the values of the fields with the key, and under the key of
    the name the name before them. -/
theorem get?_bag (hfields : ∀ f ∈ fields, f.2.isLiteral = true) (key : String) :
    (bag name fields).get? key
      = Value.gathered? ((if key = typeKey then [.str (String.ofList name)] else [])
          ++ valuesAt key fields) := by
  refine get?_appendAll ?_ hfields ?_
  · intro v hv
    split at hv
    · rw [List.mem_singleton.1 hv]
      rfl
    · exact absurd hv List.not_mem_nil
  · rw [get?_set]
    split <;> rfl

/-- **The order of a bag.** The key of the name comes first, and then the keys of the fields. -/
theorem keys_bag : (bag name fields).keys
    = typeKey :: ((fields.map Prod.fst).filter (· ≠ typeKey)).eraseDups := by
  have hstart : ((∅ : Properties).set typeKey (String.ofList name)).keys = [typeKey] := by
    rw [keys_set]
    rfl
  show (appendAll _ fields).keys = _
  rw [keys_appendAll, hstart, firstOccurrences_id]
  simp

/-! ## Fields as they are written -/

/-- The key and the value of a field: what stands before and after its first `=`, blanks apart. -/
def FieldOf (piece : List Char) (f : String × Value) : Prop :=
  ∃ key value, '=' ∉ key ∧ piece = key ++ '=' :: value
    ∧ f = (String.ofList (trim key), Value.ofChars value)

theorem isLiteral_of_fieldOf {piece : List Char} {f : String × Value} (h : FieldOf piece f) :
    f.2.isLiteral = true := by
  obtain ⟨key, value, -, -, rfl⟩ := h
  exact Value.isLiteral_ofChars value

/-- A field can be read if it has an `=`, and blanks around it do not matter. -/
theorem readField_trim_eq_ok_iff {piece : List Char} {f : String × Value} :
    readField name (trim piece) = .ok f ↔ FieldOf piece f := by
  cases hcut : cut '=' piece with
  | none =>
    have hnone : '=' ∉ piece := cut_eq_none_iff.1 hcut
    have htrim : cut '=' (trim piece) = none := by
      rw [cut_eq_none_iff]
      intro hm
      exact hnone (mem_of_mem_trim hm)
    rw [readField, htrim]
    constructor
    · intro h
      exact absurd h (by simp)
    · rintro ⟨key, value, -, rfl, -⟩
      exact absurd (List.mem_append_right _ List.mem_cons_self) hnone
  | some kv =>
    obtain ⟨key, value⟩ := kv
    obtain ⟨hkey, rfl⟩ := cut_eq_some_iff.1 hcut
    have hkey' : '=' ∉ trimStart key := fun hm => hkey ((List.dropWhile_sublist _).subset hm)
    have hread : readField name (trim (key ++ '=' :: value))
        = .ok (String.ofList (trim key), Value.ofChars value) := by
      rw [trim_append_cons (by decide), readField, cut_append_cons hkey']
      simp only [trim_trimStart, Value.ofChars, trim_trimEnd]
    rw [hread]
    constructor
    · intro h
      exact ⟨key, value, hkey, rfl, (Except.ok.inj h).symm⟩
    · rintro ⟨key', value', hkey', he, rfl⟩
      have hsame := cut_append_cons hkey' value'
      rw [← he, cut_append_cons hkey] at hsame
      obtain ⟨rfl, rfl⟩ := Prod.mk.inj (Option.some.inj hsame)
      rfl

/-- **The fields of a body** are those of its pieces that are not blank, in order. -/
theorem readFields_eq_ok_iff {body : List Char} :
    readFields name (fieldTexts body) = .ok fields
      ↔ List.Forall₂ FieldOf (written (pieces ';' body)) fields := by
  have htexts : fieldTexts body = (written (pieces ';' body)).map trim := by
    rw [fieldTexts_eq, written, List.filter_map]
    rfl
  rw [htexts]
  generalize written (pieces ';' body) = ps
  induction ps generalizing fields with
  | nil =>
    rw [List.forall₂_nil_left_iff]
    exact pure_eq_ok_iff
  | cons p ps ih =>
    rw [List.map_cons, readFields, List.forall₂_cons_left_iff]
    refine bind_eq_ok_iff.trans ?_
    constructor
    · rintro ⟨f, hf, hrest⟩
      obtain ⟨fs, hfs, he⟩ := bind_eq_ok_iff.1 hrest
      exact ⟨f, fs, readField_trim_eq_ok_iff.1 hf, ih.1 hfs, pure_eq_ok_iff.1 he⟩
    · rintro ⟨f, fs, hf, hfs, rfl⟩
      exact ⟨f, readField_trim_eq_ok_iff.2 hf, bind_eq_ok_iff.2 ⟨fs, ih.2 hfs, rfl⟩⟩

/-- The block is a name and a body with a closing bracket between them, and these are the fields of
    the body. -/
structure BlockOf (block name body : List Char) (fields : List (String × Value)) : Prop where
  /-- The bracket stands behind the name. -/
  text : block = name ++ ']' :: body
  /-- The name holds no closing bracket. -/
  name_closing : ']' ∉ name
  /-- Nor does the body. -/
  body_closing : ']' ∉ body
  /-- Every piece of the body that is not blank is a field. -/
  fields : List.Forall₂ FieldOf (written (pieces ';' body)) fields

theorem BlockOf.isLiteral {block name body : List Char} {fields : List (String × Value)}
    (h : BlockOf block name body fields) : ∀ f ∈ fields, f.2.isLiteral = true := by
  have hall := h.fields
  generalize written (pieces ';' body) = written at hall
  clear h
  induction hall with
  | nil =>
    intro f hf
    exact absurd hf List.not_mem_nil
  | cons hf _ ih => exact List.forall_mem_cons.2 ⟨isLiteral_of_fieldOf hf, ih⟩

/-- A block is read as the bag of its name and its fields. -/
theorem readsAs_iff {block : List Char} {p : Properties} :
    ReadsAs block p
      ↔ ∃ name body fields, BlockOf block name body fields ∧ p = bag (trim name) fields := by
  constructor
  · rintro ⟨name, body, fields, htext, hname, hbody, hfields, hp⟩
    exact ⟨name, body, fields, ⟨htext, hname, hbody, readFields_eq_ok_iff.1 hfields⟩, hp⟩
  · rintro ⟨name, body, fields, h, hp⟩
    exact ⟨name, body, fields, h.text, h.name_closing, h.body_closing,
      readFields_eq_ok_iff.2 h.fields, hp⟩

/-- What holds of the bag of every name and fields holds of every bag that is read. -/
theorem forall₂_of_parse {R : List Char → Properties → Prop} {text : String}
    {ps : List Properties} (h : parse text = .ok ps)
    (hR : ∀ block name body fields, BlockOf block name body fields →
      R block (bag (trim name) fields)) :
    List.Forall₂ R (written (pieces '[' (withoutComments text.toList))) ps := by
  rw [parse_eq, readAll_eq_ok_iff] at h
  refine h.imp ?_
  intro block p hp
  obtain ⟨name, body, fields, hblock, rfl⟩ := readsAs_iff.1 hp
  exact hR block name body fields hblock

end Block

/-! ## The keys of the fields -/

/-- The bag holds the given fields under their keys, and nothing else but the name. -/
structure Accumulates (fields : List (String × Value)) (p : Properties) : Prop where
  /-- Under a key stand the values of all fields that have it, in order. -/
  get? : ∀ key, key ≠ typeKey → p.get? key = Value.gathered? (Properties.valuesAt key fields)
  /-- No key occurs twice. -/
  nodup : p.keys.Nodup
  /-- The keys stand in the order in which the fields first have them, behind that of the name. -/
  keys : p.keys = typeKey :: ((fields.map Prod.fst).filter (· ≠ typeKey)).eraseDups
  /-- No value but that of the name is null or a reference or holds a list in a list. -/
  flat : ∀ key, key ≠ typeKey → ∀ v, p.get? key = some v →
    v ≠ .null ∧ (∀ r, v ≠ .ref r) ∧ ∀ items, v = .list items → ∀ w ∈ items, ∀ us, w ≠ .list us

theorem accumulates_bag (name : List Char) {fields : List (String × Value)}
    (hfields : ∀ f ∈ fields, f.2.isLiteral = true) : Accumulates fields (bag name fields) := by
  have hget : ∀ key, key ≠ typeKey →
      (bag name fields).get? key = Value.gathered? (Properties.valuesAt key fields) := by
    intro key hkey
    rw [get?_bag hfields, if_neg hkey, List.nil_append]
  refine ⟨hget, Properties.keys_nodup _, keys_bag, ?_⟩
  intro key hkey v hv
  rw [hget key hkey] at hv
  refine Value.of_gathered?_eq_some ?_ hv
  intro w hw
  exact hfields _ (Properties.mem_valuesAt.1 hw)

/-- **Repeated keys accumulate without loss.** In every bag that is read, each key of a field has
    the values of all fields of the block with that key: the only one as it is, or else a list of
    them in order. -/
theorem parse_accumulates {text : String} {ps : List Properties} (h : parse text = .ok ps) :
    List.Forall₂
      (fun block p => ∃ name body fields, BlockOf block name body fields ∧ Accumulates fields p)
      (written (pieces '[' (withoutComments text.toList))) ps := by
  refine forall₂_of_parse h ?_
  intro block name body fields hblock
  exact ⟨name, body, fields, hblock, accumulates_bag (trim name) hblock.isLiteral⟩

/-- Two keys that alternate, one of them with blanks around it, and the key of the name. -/
def plotText : String := "[Plot] crop = 1; row=2;; crop=true ;__type__=x; row=a=b; crop=1.5;"

theorem parse_accumulates_plotText :
    ∃ p, parse plotText = .ok [p]
      ∧ (∃ block name body fields, BlockOf block name body fields ∧ Accumulates fields p)
      ∧ p.keys = ["__type__", "crop", "row"]
      ∧ p.get? "row" = some (.list [.int 2, .str "a=b"]) := by
  obtain ⟨p, hp, hkeys, hrow⟩ : ∃ p, parse plotText = .ok [p]
      ∧ p.keys = ["__type__", "crop", "row"]
      ∧ p.get? "row" = some (.list [.int 2, .str "a=b"]) := ⟨_, rfl, rfl, rfl⟩
  obtain ⟨block, blocks, ⟨name, body, fields, hblock, hfields⟩, -, -⟩ :=
    List.forall₂_cons_right_iff.1 (parse_accumulates hp)
  exact ⟨p, hp, ⟨block, name, body, fields, hblock, hfields⟩, hkeys, hrow⟩

/-! ## The key of the name -/

/-- The type of a block that is shown is its name with the texts of the fields that have the key of
    the name. -/
theorem typeOf_bag (name : List Char) {fields : List (String × Value)}
    (hfields : ∀ f ∈ fields, f.2.isLiteral = true) :
    Inspection.typeOf (bag name fields)
      = ",".intercalate
          (String.ofList name :: (Properties.valuesAt typeKey fields).map Value.render) := by
  rw [Inspection.typeOf, get?_bag hfields, if_pos rfl, List.singleton_append]
  have hvalues : ∀ v ∈ Properties.valuesAt typeKey fields, (!v.isNull) = true := by
    intro v hv
    have hliteral := hfields _ (Properties.mem_valuesAt.1 hv)
    cases v <;> simp_all [Value.isLiteral, Value.isNull]
  cases hvs : Properties.valuesAt typeKey fields with
  | nil => rfl
  | cons v vs =>
    rw [hvs] at hvalues
    show (Value.list (.str (String.ofList name) :: v :: vs)).render = _
    rw [Value.render, Value.renderItems_eq, List.filter_cons_of_pos rfl,
      List.filter_eq_self.2 hvalues]
    rfl

/-- **The name of a block in its bag.** It stands under the key of the name as a text exactly if no
    field of the block has this key. The values of the fields that have it are put behind the name
    like those of any other key, and then they show in the type by which blocks are counted. -/
theorem parse_typeKey {text : String} {ps : List Properties} (h : parse text = .ok ps) :
    List.Forall₂
      (fun block p => ∃ name body fields, BlockOf block name body fields
        ∧ p.get? typeKey = Value.gathered?
            (.str (String.ofList (trim name)) :: Properties.valuesAt typeKey fields)
        ∧ (p.get? typeKey = some (.str (String.ofList (trim name)))
          ↔ ∀ f ∈ fields, f.1 ≠ typeKey)
        ∧ Inspection.typeOf p = ",".intercalate
            (String.ofList (trim name) :: (Properties.valuesAt typeKey fields).map Value.render))
      (written (pieces '[' (withoutComments text.toList))) ps := by
  refine forall₂_of_parse h ?_
  intro block name body fields hblock
  have hget : (bag (trim name) fields).get? typeKey = _ := get?_bag hblock.isLiteral typeKey
  rw [if_pos rfl, List.singleton_append] at hget
  refine ⟨name, body, fields, hblock, hget, ?_, typeOf_bag (trim name) hblock.isLiteral⟩
  rw [hget]
  constructor
  · intro hname f hf hkey
    have hmem : f.2 ∈ Properties.valuesAt typeKey fields :=
      Properties.mem_valuesAt.2 (hkey ▸ hf)
    cases hvs : Properties.valuesAt typeKey fields with
    | nil =>
      rw [hvs] at hmem
      exact absurd hmem List.not_mem_nil
    | cons v vs =>
      rw [hvs] at hname
      exact absurd hname (by simp [Value.gathered?])
  · intro hnone
    have hnil : Properties.valuesAt typeKey fields = [] := by
      refine List.eq_nil_iff_forall_not_mem.2 ?_
      intro v hv
      exact hnone _ (Properties.mem_valuesAt.1 hv) rfl
    rw [hnil]
    rfl

theorem parse_typeKey_plotText :
    ∃ p, parse plotText = .ok [p]
      ∧ (∃ block name body fields, BlockOf block name body fields
        ∧ Inspection.typeOf p = ",".intercalate
            (String.ofList (trim name) :: (Properties.valuesAt typeKey fields).map Value.render))
      ∧ p.get? typeKey = some (.list [.str "Plot", .str "x"]) := by
  obtain ⟨p, hp, hname⟩ : ∃ p, parse plotText = .ok [p]
      ∧ p.get? typeKey = some (.list [.str "Plot", .str "x"]) := ⟨_, rfl, rfl⟩
  obtain ⟨block, blocks, ⟨name, body, fields, hblock, -, -, htype⟩, -, -⟩ :=
    List.forall₂_cons_right_iff.1 (parse_typeKey hp)
  exact ⟨p, hp, ⟨block, name, body, fields, hblock, htype⟩, hname⟩

/-- A field with the key of the name is put behind the name, and the block is counted under another
    type. -/
theorem typeKey_extended_by_field :
    ∃ p, parse "[T] __type__=X;" = .ok [p]
      ∧ p.get? typeKey = some (.list [.str "T", .str "X"])
      ∧ Inspection.typeOf p = "T,X" :=
  ⟨_, rfl, rfl, by decide +kernel⟩

end GameContent
