import GameContent.Proofs.Artifact.Lines
import GameContent.Proofs.Artifact.Placement
import GameContent.Proofs.Text.Cutting
import Mathlib.Algebra.GroupWithZero.Nat

/-!
# `Proofs.Artifact.LineShape` — the lines of a record tree

Written out, a record tree is a sequence of lines, one group for each record (`Placed.group`): its
header, the line that shows its id, and a line for each element of its properties that is not null.
The writer passes an id on from record to record and joins the lines as it goes. What comes out is
the groups one after the other, each read off a record and the records around it
(`Record.lines_eq_flatMap`). So the text splits into these lines and no others, provided that no
text in the tree brings a line break of its own.
-/

namespace GameContent
open Text

/-! ## What is expected -/

/-- The texts of a record hold no line break. -/
structure Record.Unbroken (r : Record) : Prop where
  /-- The type name holds none. -/
  typeName : '\n' ∉ r.typeName.toList
  /-- Nor does the id. -/
  id : ∀ id, r.id? = some id → '\n' ∉ id.toList
  /-- Nor do the keys. -/
  key : ∀ e ∈ r.properties.entries, '\n' ∉ e.1.toList
  /-- Nor does the text of an element that is not null. -/
  value : ∀ e ∈ r.properties.entries, ∀ v ∈ e.2.toList, v.isNull = false → '\n' ∉ v.render.toList

instance (r : Record) : Decidable r.Unbroken :=
  decidable_of_iff
    ('\n' ∉ r.typeName.toList ∧ (∀ id ∈ r.id?.toList, '\n' ∉ id.toList) ∧
      (∀ e ∈ r.properties.entries, '\n' ∉ e.1.toList) ∧
      ∀ e ∈ r.properties.entries, ∀ v ∈ e.2.toList, v.isNull = false → '\n' ∉ v.render.toList)
    ⟨fun h => ⟨h.1, fun id hid => h.2.1 id (Option.mem_toList.2 hid), h.2.2.1, h.2.2.2⟩,
      fun h => ⟨h.typeName, fun id hid => h.id id (Option.mem_toList.1 hid), h.key, h.value⟩⟩

/-- The line of a field. -/
def fieldLine (indent : Nat) (key text : String) : String :=
  String.ofList (List.replicate indent ' ') ++ key ++ "=" ++ text ++ ";"

namespace Placed

/-- The lines of one record: its header, its id if one is written, and then its properties in order,
    with a line for each element that is not null. -/
def group (indent : Nat) (p : Placed) : List String :=
  ("[" ++ p.record.typeName ++ "]") :: (p.id?.toList.map (fieldLine indent "ID")
    ++ p.record.properties.entries.flatMap fun e =>
      (e.2.toList.filter (!·.isNull)).map fun v => fieldLine indent e.1 v.render)

/-- The number of elements of the properties that are not null. -/
def elementCount (p : Placed) : Nat :=
  (p.record.properties.entries.map fun e => e.2.toList.countP (!·.isNull)).sum

end Placed

/-- The lines that the text of a record tree splits into. -/
structure Record.LineShape (indent : Nat) (r : Record) : Prop where
  /-- They are the groups of its records, each before those of the records that it owns. -/
  lines : pieces '\n' (r.encode indent).toList
    = ((r.placed []).flatMap (Placed.group indent)).map String.toList
  /-- A group has a line for an id exactly if the record is not without identity and the record or
      one around it is named. -/
  ids : ∀ p ∈ r.placed [], p.id?.isSome
    ↔ p.record.identity ≠ .absent ∧ ∃ q ∈ p.record :: p.around, ∃ id, q.identity = .named id
  /-- It shows the id of the nearest one that is named, counted from the record itself. -/
  nearest : ∀ p ∈ r.placed [], ∀ id, p.id? = some id →
    ∃ before q after, p.record :: p.around = before ++ q :: after ∧ q.identity = .named id
      ∧ ∀ s ∈ before, ∀ other, s.identity ≠ .named other
  /-- Each record has one line for its header, one for its id if it is written, and one for each
      element. -/
  count : (pieces '\n' (r.encode indent).toList).length
    = ((r.placed []).map fun p => 1 + (if p.id?.isSome then 1 else 0) + p.elementCount).sum
  /-- No line is blank. -/
  solid : ∀ line ∈ pieces '\n' (r.encode indent).toList, ¬Blank line

/-! ## The lines of one record -/

/-- What a value writes out are its elements that are not null. -/
theorem Value.scalars_eq (v : Value) : v.scalars = v.toList.filter (!·.isNull) := by
  cases v <;> rfl

namespace Placed

/-- The lines of one record as the writer has them. -/
def lines (p : Placed) : List Line :=
  .header p.record.typeName :: p.fields.map fun f => .field f.1 f.2

/-- They are written as the group of the record. -/
theorem map_render_lines (indent : Nat) (p : Placed) :
    p.lines.map (Line.render indent) = p.group indent := by
  unfold lines group fields
  simp only [Value.scalars_eq, List.map_cons, List.map_append, List.map_map, List.map_flatMap,
    Function.comp_def]
  rfl

theorem length_group (indent : Nat) (p : Placed) :
    (p.group indent).length = 1 + (if p.id?.isSome then 1 else 0) + p.elementCount := by
  unfold group elementCount
  simp only [List.length_cons, List.length_append, List.length_map, List.length_flatMap,
    List.countP_eq_length_filter]
  cases p.id? with
  | none =>
    simp
    omega
  | some id =>
    simp
    omega

/-- The fields of a record hold no line break if neither the record nor one around it does. -/
theorem unbroken_fields {p : Placed} (h : ∀ r ∈ p.record :: p.around, r.Unbroken) :
    ∀ f ∈ p.fields, '\n' ∉ f.1.toList ∧ '\n' ∉ f.2.toList := by
  have hself := h p.record List.mem_cons_self
  intro f hf
  rcases List.mem_append.1 hf with hf | hf
  · obtain ⟨id, hid, rfl⟩ := List.mem_map.1 hf
    obtain ⟨r, hr, hrid⟩ := exists_of_id?_eq_some (Option.mem_toList.1 hid)
    exact ⟨show '\n' ∉ "ID".toList by decide, (h r hr).id id hrid⟩
  · obtain ⟨e, he, hfe⟩ := List.mem_flatMap.1 hf
    obtain ⟨v, hv, rfl⟩ := List.mem_map.1 hfe
    rw [Value.scalars_eq, List.mem_filter] at hv
    exact ⟨hself.key e he, hself.value e he v hv.1 (by simpa using hv.2)⟩

/-- So no line of the record holds one. -/
theorem not_mem_render_lines (indent : Nat) {p : Placed}
    (h : ∀ r ∈ p.record :: p.around, r.Unbroken) :
    ∀ l ∈ p.lines, '\n' ∉ (l.render indent).toList := by
  intro l hl
  rcases List.mem_cons.1 hl with rfl | hl
  · have htype := (h p.record List.mem_cons_self).typeName
    rw [Line.toList_render_header]
    simp [htype]
  · obtain ⟨f, hf, rfl⟩ := List.mem_map.1 hl
    obtain ⟨hkey, htext⟩ := unbroken_fields h f hf
    rw [Line.toList_render_field]
    simp [hkey, htext]

end Placed

/-- A line has a bracket or an equals sign. -/
theorem Line.not_blank_render_of_ne_comment (indent : Nat) {l : Line}
    (h : ∀ text, l ≠ .comment text) : ¬Blank (l.render indent).toList := by
  cases l with
  | header typeName =>
    rw [Line.toList_render_header]
    intro hblank
    exact absurd (hblank '[' (by simp)) (by decide)
  | field key value =>
    rw [Line.toList_render_field]
    intro hblank
    exact absurd (hblank '=' (by simp)) (by decide)
  | comment text => exact absurd rfl (h text)

/-! ## The lines of a tree -/

mutual

/-- **The writer's lines.** They are those of the records of the tree, where they stand. -/
theorem Record.lines_eq_flatMap (around : List Record) : (r : Record) →
    r.lines (around.findSome? Record.id?) = (r.placed around).flatMap Placed.lines
  | ⟨typeName, identity, properties, subrecords⟩ => by
    rw [Record.lines_eq, Record.placed_eq, List.flatMap_cons,
      Record.subrecordLines_eq_flatMap (⟨typeName, identity, properties, subrecords⟩ :: around)
        subrecords]
    rfl

/-- So it is for the records that a record owns. -/
theorem Record.subrecordLines_eq_flatMap (around : List Record) : (rs : List Record) →
    Record.subrecordLines (around.findSome? Record.id?) rs
      = (Record.subrecordsPlaced around rs).flatMap Placed.lines
  | [] => rfl
  | r :: rs => by
    rw [Record.subrecordLines, Record.subrecordsPlaced, List.flatMap_append,
      Record.lines_eq_flatMap around r, Record.subrecordLines_eq_flatMap around rs]

end

/-- Lines without line breaks are found again in their text. -/
theorem pieces_renderAll (indent : Nat) {l : Line} {ls : List Line}
    (h : ∀ m ∈ l :: ls, '\n' ∉ (m.render indent).toList) :
    pieces '\n' (Line.renderAll indent (l :: ls)).toList
      = (l :: ls).map fun m => (m.render indent).toList := by
  rw [List.map_cons, pieces_eq_cons_iff, Line.toList_renderAll_cons, List.flatMap_map]
  refine ⟨?_, rfl⟩
  intro q hq
  rcases List.mem_cons.1 hq with rfl | hq
  · exact h l List.mem_cons_self
  · obtain ⟨m, hm, rfl⟩ := List.mem_map.1 hq
    exact h m (List.mem_cons_of_mem _ hm)

theorem pieces_encode (indent : Nat) {r : Record}
    (h : ∀ p ∈ r.placed [], p.record.Unbroken) :
    pieces '\n' (r.encode indent).toList
      = ((r.placed []).flatMap Placed.lines).map fun l => (l.render indent).toList := by
  have hunbroken : ∀ p ∈ r.placed [], ∀ s ∈ p.record :: p.around, s.Unbroken := by
    intro p hp
    exact List.forall_mem_cons.2 ⟨h p hp, Record.forall_around (by simp) r h p hp⟩
  have hlines : ∀ l ∈ (r.placed []).flatMap Placed.lines, '\n' ∉ (l.render indent).toList := by
    intro l hl
    obtain ⟨p, hp, hlp⟩ := List.mem_flatMap.1 hl
    exact Placed.not_mem_render_lines indent (hunbroken p hp) l hlp
  have hencode : r.encode indent
      = Line.renderAll indent ((r.placed []).flatMap Placed.lines) := by
    rw [Record.encode, ← Record.lines_eq_flatMap]
    rfl
  rw [Record.placed_eq, List.flatMap_cons, Placed.lines, List.cons_append] at hlines hencode ⊢
  rw [hencode, pieces_renderAll indent hlines]

/-- The first named record of several decides what is found. -/
theorem exists_nearest {records : List Record} {id : String}
    (h : records.findSome? Record.id? = some id) :
    ∃ before q after, records = before ++ q :: after ∧ q.identity = .named id
      ∧ ∀ s ∈ before, ∀ other, s.identity ≠ .named other := by
  obtain ⟨before, q, after, hsplit, hq, hbefore⟩ := List.findSome?_eq_some_iff.1 h
  refine ⟨before, q, after, hsplit, Record.id?_eq_some_iff.1 hq, ?_⟩
  intro s hs other hnamed
  rw [← Record.id?_eq_some_iff, hbefore s hs] at hnamed
  exact absurd hnamed (by simp)

/-- **The shape of a record tree.** -/
theorem Record.lineShape (indent : Nat) {r : Record} (h : ∀ p ∈ r.placed [], p.record.Unbroken) :
    r.LineShape indent where
  lines := by
    rw [pieces_encode indent h, List.map_flatMap, List.map_flatMap]
    refine List.flatMap_congr fun p _ => ?_
    rw [← Placed.map_render_lines, List.map_map]
    rfl
  ids p _ := by
    rw [Placed.isSome_id?_iff]
    simp only [Option.isSome_iff_exists, Record.id?_eq_some_iff]
  nearest p _ id hid := by
    unfold Placed.id? at hid
    split at hid
    · exact absurd hid (by simp)
    · exact exists_nearest hid
  count := by
    rw [pieces_encode indent h, List.length_map, List.length_flatMap]
    congr 1
    refine List.map_congr_left fun p _ => ?_
    rw [← Placed.length_group indent, ← Placed.map_render_lines, List.length_map]
  solid line hline := by
    rw [pieces_encode indent h] at hline
    obtain ⟨l, hl, rfl⟩ := List.mem_map.1 hline
    obtain ⟨p, -, hlp⟩ := List.mem_flatMap.1 hl
    refine Line.not_blank_render_of_ne_comment indent ?_
    rintro text rfl
    rcases List.mem_cons.1 hlp with hheader | hfield
    · exact absurd hheader (by simp)
    · obtain ⟨f, -, hf⟩ := List.mem_map.1 hfield
      exact absurd hf (by simp)

/-- A turnip with nulls and nested lists, which owns a record without identity that owns another. -/
def turnip : Record :=
  ⟨"ItemType", .named "turnip",
    .ofList [("special", .list ["tasty", .null, .list ["round", .null, "red"]]), ("action", .null)],
    [⟨"Loot", .absent, .ofList [("amount", .int 2)],
      [⟨"ItemReaction", .inherited, .ofList [("newID", .ref ⟨"seeds"⟩)], []⟩]⟩]⟩

theorem lineShape_turnip :
    (∀ p ∈ turnip.placed [], p.record.Unbroken)
      ∧ pieces '\n' (turnip.encode 2).toList
        = ["[ItemType]", "  ID=turnip;", "  special=tasty;", "  special=round,red;", "[Loot]",
          "  amount=2;", "[ItemReaction]", "  ID=turnip;", "  newID=seeds;"].map String.toList := by
  have h : ∀ p ∈ turnip.placed [], p.record.Unbroken := by decide +kernel
  have hgroups : (turnip.placed []).flatMap (Placed.group 2)
      = ["[ItemType]", "  ID=turnip;", "  special=tasty;", "  special=round,red;", "[Loot]",
        "  amount=2;", "[ItemReaction]", "  ID=turnip;", "  newID=seeds;"] := by
    decide +kernel
  exact ⟨h, by rw [(Record.lineShape 2 h).lines, hgroups]⟩

end GameContent
