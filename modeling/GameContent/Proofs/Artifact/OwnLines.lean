import GameContent.Proofs.Artifact.LineShape
import GameContent.Proofs.Properties.Entries

/-!
# `Proofs.Artifact.OwnLines` — the lines of one property

The block of a record is its header and the lines up to the next header (`firstBlock_encode`). In
it, the lines that begin with a key and an equals sign are those of the property with this key, one
for each element that is written, as long as no key holds an equals sign itself (`filter_group`).
-/

namespace GameContent
open Text

/-- The lines of a text. -/
def Text.linesOf (text : String) : List String :=
  (pieces '\n' text.toList).map String.ofList

/-- Whether a line is the header of a block. -/
def opensBlock (line : String) : Bool :=
  line.toList.head? = some '['

/-- The first block of a text: its first line and what follows up to the next header. -/
def firstBlock : List String → List String
  | [] => []
  | header :: lines => header :: lines.takeWhile (!opensBlock ·)

/-- Whether a line shows a key: it begins with the indentation, the key and the equals sign. -/
def showsKey (indent : Nat) (key line : String) : Bool :=
  (List.replicate indent ' ' ++ (key.toList ++ ['='])).isPrefixOf line.toList

/-! ## Lines that show a key -/

section Showing

variable {indent : Nat} {key : String}

theorem toList_fieldLine (indent : Nat) (k text : String) :
    (fieldLine indent k text).toList
      = List.replicate indent ' ' ++ (k.toList ++ '=' :: (text.toList ++ [';'])) :=
  Line.toList_render_field indent k text

/-- A field shows its own key and no other. -/
theorem showsKey_fieldLine (hkey : '=' ∉ key.toList) {k : String} (hk : '=' ∉ k.toList)
    (text : String) : showsKey indent key (fieldLine indent k text) = true ↔ k = key := by
  rw [showsKey, List.isPrefixOf_iff_prefix, toList_fieldLine, List.prefix_append_right_inj]
  constructor
  · -- Neither key holds an equals sign, so the first one in the line ends both.
    rintro ⟨rest, hrest⟩
    rw [List.append_assoc, List.singleton_append] at hrest
    have hcut := congrArg (cut '=') hrest
    rw [cut_append_cons hkey, cut_append_cons hk] at hcut
    exact (String.toList_inj.1 (Prod.mk.inj (Option.some.inj hcut)).1).symm
  · rintro rfl
    exact ⟨text.toList ++ [';'], by rw [List.append_assoc, List.singleton_append]⟩

/-- A header shows no key, unless the key looks like one. -/
theorem showsKey_header (hkey : key.toList.head? ≠ some '[') (typeName : String) :
    showsKey indent key ("[" ++ typeName ++ "]") = false := by
  have hheader : ("[" ++ typeName ++ "]").toList = '[' :: (typeName.toList ++ [']']) := by simp
  rw [Bool.eq_false_iff, ne_eq, showsKey, List.isPrefixOf_iff_prefix, hheader]
  -- The first character of the line would be a blank or that of the key.
  rintro ⟨rest, hrest⟩
  have hhead := congrArg List.head? hrest
  cases indent with
  | succ n => simp [List.replicate_succ] at hhead
  | zero =>
    cases hk : key.toList with
    | nil => simp [hk] at hhead
    | cons c cs =>
      rw [hk] at hkey hhead
      exact hkey (by simpa using hhead)

end Showing

/-! ## The lines of one property -/

namespace Placed

variable {key : String}

/-- The lines of a record are its header and its fields. -/
theorem group_eq (indent : Nat) (p : Placed) :
    p.group indent
      = ("[" ++ p.record.typeName ++ "]") :: p.fields.map fun f => fieldLine indent f.1 f.2 := by
  rw [← map_render_lines, lines, List.map_cons, List.map_map]
  rfl

/-- The key of a field is that of the id or of a property. -/
theorem key_of_mem_fields {p : Placed} {f : String × String} (hf : f ∈ p.fields) :
    f.1 = "ID" ∨ f.1 ∈ p.record.properties.keys := by
  rcases List.mem_append.1 hf with hf | hf
  · obtain ⟨id, -, rfl⟩ := List.mem_map.1 hf
    exact .inl rfl
  · obtain ⟨e, he, hfe⟩ := List.mem_flatMap.1 hf
    obtain ⟨v, -, rfl⟩ := List.mem_map.1 hfe
    exact .inr (List.mem_map_of_mem he)

/-- The fields of a key other than that of the id show the value under it. -/
theorem filter_fields (p : Placed) (hid : key ≠ "ID") :
    p.fields.filter (·.1 = key)
      = ((p.record.properties.get? key).getD .null).scalarTexts.map (key, ·) := by
  have hids : (p.id?.toList.map (("ID", ·))).filter (·.1 = key) = [] := by
    refine List.filter_eq_nil_iff.2 fun f hf => ?_
    obtain ⟨id, -, rfl⟩ := List.mem_map.1 hf
    simpa using hid.symm
  have hentry : ∀ e ∈ p.record.properties.entries,
      (e.2.scalars.map fun v => (e.1, v.render)).filter (·.1 = key)
        = if e.1 = key then e.2.scalarTexts.map (key, ·) else [] := by
    intro e _
    by_cases hk : e.1 = key
    · rw [if_pos hk, Value.scalarTexts, List.map_map, hk]
      exact List.filter_eq_self.2 (by simp)
    · rw [if_neg hk]
      exact List.filter_eq_nil_iff.2 (by simpa using fun _ _ => hk)
  rw [fields, List.filter_append, hids, List.nil_append, List.filter_flatMap,
    List.flatMap_congr hentry, Properties.flatMap_entries _ key fun v => v.scalarTexts.map (key, ·)]
  cases p.record.properties.get? key <;> rfl

/-- **The lines of one property.** Of the lines of a record, those that show a key are the lines of
    the property, in order. -/
theorem filter_group (p : Placed) (indent : Nat) (hkey : '=' ∉ key.toList)
    (hid : key ≠ "ID") (hhead : key.toList.head? ≠ some '[')
    (hkeys : ∀ k ∈ p.record.properties.keys, '=' ∉ k.toList) :
    (p.group indent).filter (showsKey indent key)
      = ((p.record.properties.get? key).getD .null).scalarTexts.map (fieldLine indent key) := by
  have hshows : ∀ f ∈ p.fields,
      (showsKey indent key ∘ fun f => fieldLine indent f.1 f.2) f = decide (f.1 = key) := by
    intro f hf
    have heq : '=' ∉ f.1.toList := by
      rcases key_of_mem_fields hf with hf | hf
      · rw [hf]
        decide
      · exact hkeys _ hf
    exact Bool.eq_iff_iff.2 ((showsKey_fieldLine hkey heq _).trans (decide_eq_true_iff).symm)
  rw [group_eq, List.filter_cons_of_neg (by rw [showsKey_header hhead]; exact Bool.false_ne_true),
    List.filter_map, List.filter_congr hshows, filter_fields p hid, List.map_map]
  rfl

end Placed

/-! ## Blocks -/

/-- The lines of the text of a record tree. -/
theorem linesOf_encode (indent : Nat) {r : Record} (h : ∀ p ∈ r.placed [], p.record.Unbroken) :
    linesOf (r.encode indent)
      = (⟨r, []⟩ : Placed).group indent
        ++ (Record.subrecordsPlaced [r] r.subrecords).flatMap (Placed.group indent) := by
  have hlines : linesOf (r.encode indent) = (r.placed []).flatMap (Placed.group indent) := by
    rw [linesOf, pieces_encode indent h, List.map_map, List.map_flatMap]
    refine List.flatMap_congr fun p _ => ?_
    rw [← Placed.map_render_lines]
    refine List.map_congr_left fun l _ => ?_
    exact String.ofList_toList
  rw [hlines, Record.placed_eq, List.flatMap_cons]

theorem opensBlock_header (typeName : String) : opensBlock ("[" ++ typeName ++ "]") = true := by
  simp [opensBlock]

theorem opensBlock_fieldLine {indent : Nat} (hindent : 0 < indent) (k text : String) :
    opensBlock (fieldLine indent k text) = false := by
  obtain ⟨n, rfl⟩ := Nat.exists_eq_succ_of_ne_zero (Nat.ne_of_gt hindent)
  rw [opensBlock, toList_fieldLine]
  simp [List.replicate_succ]

/-- **The first block** of the text of a record is the record's own, if fields are indented. -/
theorem firstBlock_encode {indent : Nat} (hindent : 0 < indent) {r : Record}
    (h : ∀ p ∈ r.placed [], p.record.Unbroken) :
    firstBlock (linesOf (r.encode indent)) = (⟨r, []⟩ : Placed).group indent := by
  have hrest : ((Record.subrecordsPlaced [r] r.subrecords).flatMap (Placed.group indent)).takeWhile
      (!opensBlock ·) = [] := by
    cases r.subrecords with
    | nil => rfl
    | cons s ss =>
      rw [Record.subrecordsPlaced, Record.placed_eq, List.cons_append, List.flatMap_cons,
        Placed.group, List.cons_append,
        List.takeWhile_cons_of_neg (by rw [opensBlock_header]; exact Bool.false_ne_true)]
  rw [linesOf_encode indent h, Placed.group, List.cons_append, firstBlock,
    List.takeWhile_append_of_pos, hrest, List.append_nil]
  -- The other lines of the record are fields.
  intro line hline
  rcases List.mem_append.1 hline with hline | hline
  · obtain ⟨id, -, rfl⟩ := List.mem_map.1 hline
    rw [opensBlock_fieldLine hindent]
    rfl
  · obtain ⟨e, -, he⟩ := List.mem_flatMap.1 hline
    obtain ⟨v, -, rfl⟩ := List.mem_map.1 he
    rw [opensBlock_fieldLine hindent]
    rfl

end GameContent
