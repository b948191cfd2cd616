import GameContent.Proofs.Artifact.Lines
import GameContent.Proofs.Artifact.Placement
import GameContent.Proofs.Artifact.Reading

/-!
# `Proofs.Artifact.RoundTrip` — what is written can be read

Reading the text of a collection gives one property bag for each of its records, in the order in
which they are written, as long as none of their texts holds a character that means something to
the reader (`Record.Undelimited`).

The invariant that carries the proof is `Reads`: a text can be put behind any other on a new line,
and then adds its own bags to what is read (`Reads.append`). A comment line adds nothing, the block
of one record adds its bag, and records, their subrecords, items and collections are put together
from these line by line.
-/

namespace GameContent
open Text

/-! ## Texts that can follow one another -/

/-- The text opens with a block, blanks apart, and these bags are read from it, whatever number its
    blocks are counted from. -/
structure Reads (cs : List Char) (ps : List Properties) : Prop where
  /-- Nothing but blanks stands before the first block. -/
  opens : ∃ front blocks, pieces '[' (withoutComments cs) = front :: blocks ∧ Blank front
  /-- The bags of the blocks. -/
  read : ∀ n, Block.readAll n (pieces '[' (withoutComments cs)) = .ok ps

namespace Reads

theorem of_withoutComments_eq_nil {cs : List Char} (h : withoutComments cs = []) :
    Reads cs [] := by
  refine ⟨⟨[], [], ?_, blank_nil⟩, fun n => ?_⟩
  · rw [h]
    rfl
  · rw [h]
    rfl

theorem nil : Reads [] [] := of_withoutComments_eq_nil rfl

/-- **Line by line.** A text on a new line adds its bags. -/
theorem append {a b : List Char} {ps qs : List Properties} (ha : Reads a ps) (hb : Reads b qs) :
    Reads (a ++ '\n' :: b) (ps ++ qs) := by
  obtain ⟨fa, as, hpa, hfa⟩ := ha.opens
  obtain ⟨fb, bs, hpb, hfb⟩ := hb.opens
  have hblank : Blank ('\n' :: fb) := by
    rw [← List.singleton_append, blank_append]
    exact ⟨by simp [Blank]; decide, hfb⟩
  have hnew : pieces '[' ('\n' :: withoutComments b) = ('\n' :: fb) :: bs := by
    rw [pieces, if_neg (by decide), hpb, extendFirst]
  refine ⟨?_, fun n => ?_⟩
  · rw [withoutComments_append_newline]
    obtain ⟨front, last, hsplit, hjoin⟩ := exists_pieces_append '[' (withoutComments a)
    rw [hjoin _ _ _ hnew]
    rw [hsplit] at hpa
    cases front with
    | nil =>
      obtain ⟨rfl, -⟩ := List.cons.inj hpa
      exact ⟨_, _, rfl, blank_append.2 ⟨hfa, hblank⟩⟩
    | cons f front =>
      obtain ⟨rfl, -⟩ := List.cons.inj hpa
      exact ⟨_, _, rfl, hfa⟩
  · rw [withoutComments_append_newline, Block.readAll_pieces_append_newline hpb hfb, ha.read,
      hb.read]
    rfl

/-- Several texts, each on a new line, add their bags in order. -/
theorem append_flatMap {α : Type} {cs : List Char} {ps : List Properties} (h : Reads cs ps)
    (text : α → List Char) (bags : α → List Properties) {xs : List α}
    (hxs : ∀ x ∈ xs, Reads (text x) (bags x)) :
    Reads (cs ++ xs.flatMap fun x => '\n' :: text x) (ps ++ xs.flatMap bags) := by
  induction xs generalizing cs ps with
  | nil => simpa using h
  | cons x xs ih =>
    have hx := h.append (hxs x List.mem_cons_self)
    have hrest := ih hx fun y hy => hxs y (List.mem_cons_of_mem _ hy)
    simpa [List.append_assoc] using hrest

end Reads

/-! ## The block of one record -/

/-- The text holds no bracket and no comment marker. -/
structure Unbracketed (s : String) : Prop where
  /-- No opening bracket. -/
  opening : '[' ∉ s.toList
  /-- No closing bracket. -/
  closing : ']' ∉ s.toList
  /-- No comment marker. -/
  marker : Unmarked s.toList

instance (s : String) : Decidable (Unbracketed s) :=
  decidable_of_iff ('[' ∉ s.toList ∧ ']' ∉ s.toList ∧ ¬['-', '-'] <:+: s.toList)
    ⟨fun h => ⟨h.1, h.2.1, h.2.2⟩, fun h => ⟨h.opening, h.closing, h.marker⟩⟩

/-- A field whose key and text hold nothing that means something to the reader. -/
structure UndelimitedField (f : String × String) : Prop where
  /-- The key holds no bracket and no comment marker. -/
  key : Unbracketed f.1
  /-- Nor does the text. -/
  text : Unbracketed f.2
  /-- The key does not end the field. -/
  key_semicolon : ';' ∉ f.1.toList
  /-- Nor does the text. -/
  text_semicolon : ';' ∉ f.2.toList
  /-- The key does not end itself. -/
  key_equals : '=' ∉ f.1.toList

/-- The characters of a field on a new line, without the semicolon at its end. -/
def fieldChars (indent : Nat) (f : String × String) : List Char :=
  '\n' :: (List.replicate indent ' ' ++ (f.1.toList ++ '=' :: f.2.toList))

/-- The characters of several fields, each on a new line. -/
def fieldsChars (indent : Nat) (fs : List (String × String)) : List Char :=
  fs.flatMap fun f => fieldChars indent f ++ [';']

theorem withoutComments_replicate_space (n : Nat) (cs : List Char) :
    withoutComments (List.replicate n ' ' ++ cs) = List.replicate n ' ' ++ withoutComments cs := by
  induction n with
  | zero => rfl
  | succ n ih =>
    rw [List.replicate_succ, List.cons_append, withoutComments_cons (Or.inl (by decide)), ih,
      List.cons_append]

theorem withoutComments_fieldsChars (indent : Nat) {fs : List (String × String)}
    (h : ∀ f ∈ fs, UndelimitedField f) :
    withoutComments (fieldsChars indent fs) = fieldsChars indent fs := by
  induction fs with
  | nil => rfl
  | cons f fs ih =>
    have hf := h f List.mem_cons_self
    have hsplit : fieldsChars indent (f :: fs)
        = '\n' :: (List.replicate indent ' ' ++ (f.1.toList ++ '=' ::
            (f.2.toList ++ ';' :: fieldsChars indent fs))) := by
      simp [fieldsChars, fieldChars]
    rw [hsplit, withoutComments_cons (Or.inl (by decide)), withoutComments_replicate_space,
      withoutComments_append_cons hf.key.marker (by decide),
      withoutComments_append_cons hf.text.marker (by decide),
      ih fun g hg => h g (List.mem_cons_of_mem _ hg)]

theorem not_mem_fieldChars {indent : Nat} {f : String × String} {c : Char} (hkey : c ∉ f.1.toList)
    (htext : c ∉ f.2.toList) (hc : c ≠ '\n' ∧ c ≠ ' ' ∧ c ≠ '=') : c ∉ fieldChars indent f := by
  simp only [fieldChars, List.mem_cons, List.mem_append, not_or]
  exact ⟨hc.1, fun hm => hc.2.1 (List.eq_of_mem_replicate hm), hkey, hc.2.2, htext⟩

theorem not_mem_fieldsChars {indent : Nat} {fs : List (String × String)} {c : Char}
    (h : ∀ f ∈ fs, c ∉ f.1.toList ∧ c ∉ f.2.toList)
    (hc : c ≠ '\n' ∧ c ≠ ' ' ∧ c ≠ '=' ∧ c ≠ ';') : c ∉ fieldsChars indent fs := by
  intro hm
  obtain ⟨f, hf, hcf⟩ := List.mem_flatMap.1 hm
  rcases List.mem_append.1 hcf with hcf | hcf
  · exact not_mem_fieldChars (h f hf).1 (h f hf).2 ⟨hc.1, hc.2.1, hc.2.2.1⟩ hcf
  · exact hc.2.2.2 (List.mem_singleton.1 hcf)

theorem pieces_fieldsChars (indent : Nat) {fs : List (String × String)}
    (h : ∀ f ∈ fs, UndelimitedField f) :
    pieces ';' (fieldsChars indent fs) = fs.map (fieldChars indent) ++ [[]] := by
  induction fs with
  | nil => rfl
  | cons f fs ih =>
    have hf := h f List.mem_cons_self
    have hsplit : fieldsChars indent (f :: fs)
        = fieldChars indent f ++ ';' :: fieldsChars indent fs := by
      simp [fieldsChars]
    have hone : ';' ∉ fieldChars indent f :=
      not_mem_fieldChars hf.key_semicolon hf.text_semicolon (by decide)
    rw [hsplit, pieces_append_cons, pieces_of_not_mem hone,
      ih fun g hg => h g (List.mem_cons_of_mem _ hg), List.map_cons]
    rfl

/-- The blanks around a field go, and those around its `=` stay. -/
theorem trim_fieldChars (indent : Nat) (f : String × String) :
    trim (fieldChars indent f) = trimStart f.1.toList ++ '=' :: trimEnd f.2.toList := by
  have hblank : Blank ('\n' :: List.replicate indent ' ') := by
    rw [← List.singleton_append, blank_append]
    exact ⟨by simp [Blank]; decide, blank_replicate_space indent⟩
  have hsplit : fieldChars indent f
      = ('\n' :: List.replicate indent ' ') ++ (f.1.toList ++ '=' :: f.2.toList) := by
    simp [fieldChars]
  rw [hsplit, trim_blank_append hblank, trim_append_cons (by decide)]

/-- Every field is found in the body again. -/
theorem fieldTexts_fieldsChars (indent : Nat) {fs : List (String × String)}
    (h : ∀ f ∈ fs, UndelimitedField f) :
    Block.fieldTexts (fieldsChars indent fs) = fs.map fun f => trim (fieldChars indent f) := by
  have hne : ∀ cs ∈ fs.map fun f => trim (fieldChars indent f), (!cs.isEmpty) = true := by
    intro cs hcs
    obtain ⟨f, -, rfl⟩ := List.mem_map.1 hcs
    rw [trim_fieldChars]
    simp
  rw [Block.fieldTexts_eq, pieces_fieldsChars indent h, List.map_append, List.map_map,
    List.filter_append, Function.comp_def, List.filter_eq_self.2 hne]
  simp

/-- A field is read as its key without blanks at the ends and the value of its text. -/
theorem readField_trim_fieldChars (name : List Char) (indent : Nat) {f : String × String}
    (h : UndelimitedField f) :
    Block.readField name (trim (fieldChars indent f))
      = .ok (trimmed f.1, Value.ofText f.2) := by
  have hkey : '=' ∉ trimStart f.1.toList :=
    fun hm => h.key_equals ((List.dropWhile_sublist _).subset hm)
  rw [trim_fieldChars, Block.readField, cut_append_cons hkey]
  simp only [trim_trimStart, Value.ofChars, trim_trimEnd]
  rfl

/-- **The block of a record** is read as the bag of its fields. -/
theorem Reads.block (indent : Nat) {typeName : String} {fs : List (String × String)}
    (htype : Unbracketed typeName) (hfs : ∀ f ∈ fs, UndelimitedField f) :
    Reads (Line.renderAll indent (.header typeName :: fs.map fun f => .field f.1 f.2)).toList
      [Block.bag (trim typeName.toList) (fs.map fun f => (trimmed f.1, Value.ofText f.2))] := by
  have htext : (Line.renderAll indent (.header typeName :: fs.map fun f => .field f.1 f.2)).toList
      = '[' :: (typeName.toList ++ ']' :: fieldsChars indent fs) := by
    rw [Line.toList_renderAll_cons, Line.toList_render_header]
    simp [fieldsChars, fieldChars, Line.toList_render_field, List.flatMap_map]
  have hopen : '[' ∉ typeName.toList ++ ']' :: fieldsChars indent fs := by
    have hfields : '[' ∉ fieldsChars indent fs :=
      not_mem_fieldsChars (fun f hf => ⟨(hfs f hf).key.opening, (hfs f hf).text.opening⟩)
        (by decide)
    simp [htype.opening, hfields]
  have hclose : ']' ∉ fieldsChars indent fs :=
    not_mem_fieldsChars (fun f hf => ⟨(hfs f hf).key.closing, (hfs f hf).text.closing⟩) (by decide)
  have hpieces : pieces '[' (withoutComments
      (Line.renderAll indent (.header typeName :: fs.map fun f => .field f.1 f.2)).toList)
      = [[], typeName.toList ++ ']' :: fieldsChars indent fs] := by
    rw [htext, withoutComments_cons (Or.inl (by decide)),
      withoutComments_append_cons htype.marker (by decide), withoutComments_fieldsChars indent hfs,
      pieces, if_pos rfl, pieces_of_not_mem hopen]
  refine ⟨⟨_, _, hpieces, blank_nil⟩, fun n => ?_⟩
  have hnb : ¬Blank (typeName.toList ++ ']' :: fieldsChars indent fs) := by
    intro hb
    exact hb.not_mem (c := ']') (by decide) (by simp)
  rw [hpieces, Block.readAll_cons_blank blank_nil, Block.readAll_cons_of_not_blank hnb,
    Block.read_append_cons htype.closing hclose, fieldTexts_fieldsChars indent hfs,
    Block.readFields_map _ _ fun f hf => readField_trim_fieldChars _ indent (hfs f hf)]
  rfl

/-! ## Records, comments and collections -/

/-- The texts of a record hold no character that means something to the reader where they stand. -/
structure Record.Undelimited (r : Record) : Prop where
  /-- The type name holds no bracket and no comment marker. -/
  typeName : Unbracketed r.typeName
  /-- Nor does the id, which holds no semicolon either. -/
  id : ∀ id, r.id? = some id → Unbracketed id ∧ ';' ∉ id.toList
  /-- Nor does a key, which holds no semicolon and no `=` either. -/
  key : ∀ e ∈ r.properties.entries, Unbracketed e.1 ∧ ';' ∉ e.1.toList ∧ '=' ∉ e.1.toList
  /-- Nor does the text of a value that is written out, which holds no semicolon either. -/
  value : ∀ e ∈ r.properties.entries, ∀ v ∈ e.2.scalars,
    Unbracketed v.render ∧ ';' ∉ v.render.toList

instance (r : Record) : Decidable r.Undelimited :=
  decidable_of_iff
    (Unbracketed r.typeName ∧ (∀ id ∈ r.id?.toList, Unbracketed id ∧ ';' ∉ id.toList) ∧
      (∀ e ∈ r.properties.entries, Unbracketed e.1 ∧ ';' ∉ e.1.toList ∧ '=' ∉ e.1.toList) ∧
      ∀ e ∈ r.properties.entries, ∀ v ∈ e.2.scalars, Unbracketed v.render ∧ ';' ∉ v.render.toList)
    ⟨fun h => ⟨h.1, fun id hid => h.2.1 id (Option.mem_toList.2 hid), h.2.2.1, h.2.2.2⟩,
      fun h => ⟨h.typeName, fun id hid => h.id id (Option.mem_toList.1 hid), h.key, h.value⟩⟩

/-- The bag that a record leaves behind: the name of its type, the id that is written for it, and
    the values of its properties, with repeated keys accumulated. -/
def Placed.bag (p : Placed) : Properties :=
  let ids := p.id?.toList.map fun id => ("ID", Value.ofText id)
  let values := p.record.properties.entries.flatMap fun e =>
    e.2.scalars.map fun v => (trimmed e.1, Value.ofText v.render)
  (ids ++ values).foldl (fun bag e => bag.append e.1 e.2)
    (.ofList [(Block.typeKey, .str (trimmed p.record.typeName))])

/-- The bag of a record is the one that is read from its block. -/
theorem Placed.bag_eq (p : Placed) :
    p.bag = Block.bag (trim p.record.typeName.toList)
      (p.fields.map fun f => (trimmed f.1, Value.ofText f.2)) := by
  have hid : trimmed "ID" = "ID" := by decide
  rw [Placed.bag, Block.bag, Placed.fields]
  simp only [List.map_append, List.map_map, List.map_flatMap, Function.comp_def, hid]
  rfl

theorem unbracketed_ID : Unbracketed "ID" := by decide

theorem Placed.undelimitedField {p : Placed} (h : p.record.Undelimited)
    (haround : ∀ r ∈ p.around, r.Undelimited) : ∀ f ∈ p.fields, UndelimitedField f := by
  intro f hf
  rcases List.mem_append.1 hf with hf | hf
  · -- The id is that of the record itself or of one around it.
    obtain ⟨id, hid, rfl⟩ := List.mem_map.1 hf
    obtain ⟨r, hr, hrid⟩ := Placed.exists_of_id?_eq_some (Option.mem_toList.1 hid)
    have hund : r.Undelimited := by
      rcases List.mem_cons.1 hr with rfl | hm
      · exact h
      · exact haround r hm
    obtain ⟨hb, hsemi⟩ := hund.id id hrid
    exact ⟨unbracketed_ID, hb, show ';' ∉ "ID".toList by decide, hsemi,
      show '=' ∉ "ID".toList by decide⟩
  · obtain ⟨e, he, hfe⟩ := List.mem_flatMap.1 hf
    obtain ⟨v, hv, rfl⟩ := List.mem_map.1 hfe
    obtain ⟨hkb, hks, hke⟩ := h.key e he
    obtain ⟨hvb, hvs⟩ := h.value e he v hv
    exact ⟨hkb, hvb, hks, hvs, hke⟩

mutual

/-- A record is read as its own bag and those of the records it owns. -/
theorem Record.reads (indent : Nat) (around : List Record) : (r : Record) →
    (∀ s ∈ around, s.Undelimited) → (∀ p ∈ r.placed around, p.record.Undelimited) →
    Reads (Line.renderAll indent (r.lines (around.findSome? Record.id?))).toList
      ((r.placed around).map Placed.bag)
  | ⟨typeName, identity, properties, subrecords⟩, haround, h => by
    have hr := h _ (Record.placed_eq _ _ ▸ List.mem_cons_self)
    have hblock := Reads.block indent hr.typeName
      (Placed.undelimitedField (p := ⟨⟨typeName, identity, properties, subrecords⟩, around⟩) hr
        haround)
    have hsubs := Record.subrecords_reads indent
      (⟨typeName, identity, properties, subrecords⟩ :: around) subrecords
      (fun s hs => (List.mem_cons.1 hs).elim (fun he => he ▸ hr) (haround s))
      (fun p hp => h p (Record.placed_eq _ _ ▸ List.mem_cons_of_mem _ hp)) hblock
    rw [← Placed.bag_eq] at hsubs
    rw [Record.lines_eq, Record.placed_eq, Line.toList_renderAll_append]
    exact hsubs

/-- The records that a record owns are read after whatever stands before them. -/
theorem Record.subrecords_reads (indent : Nat) (around : List Record) : (rs : List Record) →
    (∀ s ∈ around, s.Undelimited) →
    (∀ p ∈ Record.subrecordsPlaced around rs, p.record.Undelimited) →
    {cs : List Char} → {ps : List Properties} → Reads cs ps →
    Reads (cs ++ (Record.subrecordLines (around.findSome? Record.id?) rs).flatMap
        fun l => '\n' :: (l.render indent).toList)
      (ps ++ (Record.subrecordsPlaced around rs).map Placed.bag)
  | [], _, _, cs, ps, hcs => by simpa [Record.subrecordLines, Record.subrecordsPlaced] using hcs
  | r :: rs, haround, h, cs, ps, hcs => by
    have hr := Record.reads indent around r haround fun p hp =>
      h p (List.mem_append_left _ hp)
    have hrs := Record.subrecords_reads indent around rs haround
      (fun p hp => h p (List.mem_append_right _ hp)) (hcs.append hr)
    have hlines : (r.lines (around.findSome? Record.id?)).flatMap
        (fun l => '\n' :: (l.render indent).toList)
        = '\n' :: (Line.renderAll indent (r.lines (around.findSome? Record.id?))).toList := by
      rw [Record.lines_eq, List.cons_append, Line.toList_renderAll_cons]
      rfl
    rw [Record.subrecordLines, Record.subrecordsPlaced, List.flatMap_append, hlines,
      List.map_append]
    simpa [List.append_assoc] using hrs

end

/-- Nothing is read from a comment. -/
theorem reads_encodeComment (text : String) : Reads (encodeComment text).toList [] := by
  have hline : ∀ p ∈ pieces '\n' text.toList,
      Reads (Line.render Line.defaultIndent (.comment (String.ofList (trim p)))).toList [] := by
    intro p hp
    have hbreak : '\n' ∉ ' ' :: trim p := by
      rw [List.mem_cons, not_or]
      exact ⟨by decide, fun hm => not_mem_of_mem_pieces hp (mem_of_mem_trim hm)⟩
    rw [Line.toList_render_comment, String.toList_ofList]
    exact Reads.of_withoutComments_eq_nil (withoutComments_comment hbreak)
  rw [encodeComment, commentLines]
  cases hps : pieces '\n' text.toList with
  | nil => exact absurd hps (pieces_ne_nil _ _)
  | cons p ps =>
    rw [hps] at hline
    have h := (hline p List.mem_cons_self).append_flatMap _ (fun _ => [])
      fun q hq => hline q (List.mem_cons_of_mem _ hq)
    have hnone : ps.flatMap (fun _ => ([] : List Properties)) = [] :=
      List.flatMap_eq_nil_iff.2 fun _ _ => rfl
    rw [hnone] at h
    rw [List.map_cons, Line.toList_renderAll_cons, List.flatMap_map]
    exact h

mutual

/-- An item is read as the bags of its records. -/
theorem Item.reads (indent : Nat) : (item : Item) →
    (∀ p ∈ item.placed, p.record.Undelimited) →
    Reads (item.encode indent).toList (item.placed.map Placed.bag)
  | .record r, h => by
    rw [Item.encode, Item.placed]
    exact Record.reads indent [] r (by simp) h
  | .comment text, _ => by
    rw [Item.encode, Item.placed]
    exact reads_encodeComment text
  | .collection items, h => by
    rw [Item.encode, Item.placed]
    exact Collection.reads indent items h

/-- A collection is read as the bags of its records. -/
theorem Collection.reads (indent : Nat) : (items : List Item) →
    (∀ p ∈ Collection.placed items, p.record.Undelimited) →
    Reads ("\n\n".intercalate (Collection.encodeItems indent items)).toList
      ((Collection.placed items).map Placed.bag)
  | [], _ => by
    rw [Collection.encodeItems, Collection.placed]
    exact Reads.nil
  | item :: items, h => by
    have hitem := Item.reads indent item fun p hp => h p (List.mem_append_left _ hp)
    have hitems := Collection.reads indent items fun p hp => h p (List.mem_append_right _ hp)
    rw [Collection.encodeItems, Collection.placed, List.map_append]
    cases hrest : Collection.encodeItems indent items with
    | nil =>
      have hnil : items = [] := by
        cases items with
        | nil => rfl
        | cons i is => simp [Collection.encodeItems] at hrest
      subst hnil
      simpa [Collection.placed] using hitem
    | cons t ts =>
      rw [hrest] at hitems
      -- The blank line between two items is an empty text between two line breaks.
      have h := hitem.append (Reads.nil.append hitems)
      rw [String.intercalate_cons_cons, String.toList_append, String.toList_append]
      simpa using h

end

/-- **Reading undoes writing.** From the text of a collection whose texts are undelimited one bag is
    read for each record, each before those of the records it owns, and nothing for comments and
    empty collections. -/
theorem parse_encode (indent : Nat) {c : Collection}
    (h : ∀ p ∈ Collection.placed c, p.record.Undelimited) :
    parse (c.encode indent) = .ok ((Collection.placed c).map Placed.bag) := by
  rw [parse_eq]
  exact (Collection.reads indent c h).read 0

/-- A comment full of delimiters, an empty collection, and a nested record with a repeated value, a
    null, an owned record that shows its owner's id, and one without identity that passes it on. -/
def turnipBed : Collection :=
  [.comment "[Plants] k=1; -- k=2\n] sown",
   .collection [],
   .collection
    [.record ⟨" ItemType ", .named "turnip",
      .ofList [(" name", "Turnip "), ("special", .list ["a", .null, .bool true]), ("sprite", .int 7)],
      [⟨"Loot", .absent, .ofList [("ID", "gold")],
        [⟨"ItemReaction", .inherited, .ofList [("newID", .ref ⟨"seeds"⟩), ("action", .null)], []⟩]⟩]⟩]]

theorem parse_encode_turnipBed :
    (∀ p ∈ Collection.placed turnipBed, p.record.Undelimited)
      ∧ parse (Collection.encode 4 turnipBed)
        = .ok ((Collection.placed turnipBed).map Placed.bag)
      ∧ (Collection.placed turnipBed).map Placed.id? = [some "turnip", none, some "turnip"] :=
  have h : ∀ p ∈ Collection.placed turnipBed, p.record.Undelimited := by decide +kernel
  ⟨h, parse_encode 4 h, by decide +kernel⟩

end GameContent
