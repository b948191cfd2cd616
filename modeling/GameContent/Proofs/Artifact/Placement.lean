import GameContent.Artifact.Encoding

/-!
# `Proofs.Artifact.Placement` — the records of a collection where they stand

A record owns records, and collections hold collections. `Collection.placed` lists the records of a
collection in the order in which they are written, each with the records around it. What a record
passes on to the records it owns is then a matter of the nearest named one among those
(`Placed.passedOn_eq`).
-/

namespace GameContent

/-- A record where it stands. -/
structure Placed where
  /-- The record. -/
  record : Record
  /-- The records around it, the nearest first. -/
  around : List Record

namespace Placed

/-- The id of the nearest named record, counted from the record itself. -/
def nearestId? (p : Placed) : Option String :=
  (p.record :: p.around).findSome? Record.id?

/-- The id that is written for the record, if one is: the nearest, unless the record is without
    identity. -/
def id? (p : Placed) : Option String :=
  if p.record.identity = .absent then none else p.nearestId?

/-- What a record passes on is the nearest id, if the records around it did the same. -/
theorem passedOn_eq (p : Placed) :
    p.record.identity.passedOn (p.around.findSome? Record.id?) = p.nearestId? := by
  rw [nearestId?, List.findSome?_cons, Record.id?]
  cases p.record.identity <;> rfl

theorem shown_eq (p : Placed) :
    p.record.identity.shown (p.around.findSome? Record.id?) = p.id? := by
  rw [id?, ← passedOn_eq]
  cases p.record.identity <;> rfl

/-- The id that is written is the own id of the record or of one around it. -/
theorem exists_of_id?_eq_some {p : Placed} {id : String} (h : p.id? = some id) :
    ∃ r ∈ p.record :: p.around, r.id? = some id := by
  unfold Placed.id? at h
  split at h
  · exact absurd h (by simp)
  · exact List.exists_of_findSome?_eq_some h

/-- An id is written exactly for a record that is not without identity and is named itself or has a
    named record around it. -/
theorem isSome_id?_iff (p : Placed) :
    p.id?.isSome ↔ p.record.identity ≠ .absent ∧ ∃ r ∈ p.record :: p.around, r.id?.isSome := by
  unfold Placed.id? Placed.nearestId?
  by_cases habsent : p.record.identity = .absent
  · simp [habsent]
  · rw [if_neg habsent, List.findSome?_isSome_iff]
    simp [habsent]

/-- The fields that are written for the record, as keys and texts. -/
def fields (p : Placed) : List (String × String) :=
  p.id?.toList.map (("ID", ·)) ++
    p.record.properties.entries.flatMap fun e => e.2.scalars.map fun v => (e.1, v.render)

end Placed

mutual

/-- The record and the records it owns, at any depth, each before those it owns itself. -/
def Record.placed (around : List Record) : Record → List Placed
  | ⟨typeName, identity, properties, subrecords⟩ =>
    ⟨⟨typeName, identity, properties, subrecords⟩, around⟩ ::
      Record.subrecordsPlaced (⟨typeName, identity, properties, subrecords⟩ :: around) subrecords

/-- The records of a list of owned records. -/
def Record.subrecordsPlaced (around : List Record) : List Record → List Placed
  | [] => []
  | r :: rs => r.placed around ++ Record.subrecordsPlaced around rs

end

mutual

/-- The records of an item. -/
def Item.placed : Item → List Placed
  | .record r => r.placed []
  | .comment _ => []
  | .collection items => Collection.placed items

/-- The records of a collection, in the order in which they are written. -/
def Collection.placed : List Item → List Placed
  | [] => []
  | item :: items => item.placed ++ Collection.placed items

end

/-- A record is written as its header, its fields and the records it owns. -/
theorem Record.lines_eq (r : Record) (around : List Record) :
    r.lines (around.findSome? Record.id?)
      = .header r.typeName :: ((⟨r, around⟩ : Placed).fields.map fun f => .field f.1 f.2)
        ++ Record.subrecordLines ((r :: around).findSome? Record.id?) r.subrecords := by
  have hshown := Placed.shown_eq ⟨r, around⟩
  have hpassed := Placed.passedOn_eq ⟨r, around⟩
  rw [Placed.nearestId?] at hpassed
  cases r with
  | mk typeName identity properties subrecords =>
    rw [Record.lines, hshown, hpassed, Placed.fields, Properties.lines]
    simp [List.map_flatMap, Value.scalarTexts, Function.comp_def]

theorem Record.placed_eq (r : Record) (around : List Record) :
    r.placed around = ⟨r, around⟩ :: Record.subrecordsPlaced (r :: around) r.subrecords := by
  cases r
  rw [Record.placed]

/-- Records that own none are listed by themselves. -/
theorem Record.subrecordsPlaced_eq_map (around : List Record) {rs : List Record}
    (h : ∀ r ∈ rs, r.subrecords = []) : subrecordsPlaced around rs = rs.map (⟨·, around⟩) := by
  induction rs with
  | nil => rfl
  | cons r rs ih =>
    obtain ⟨hr, hrs⟩ := List.forall_mem_cons.1 h
    rw [subrecordsPlaced, placed_eq, hr, subrecordsPlaced, ih hrs]
    rfl

section Around
variable {P : Record → Prop}

mutual

/-- What holds of all records of a tree and of those around the tree holds of the records around
    each of them. -/
theorem Record.forall_around {around : List Record} (haround : ∀ s ∈ around, P s) : (r : Record) →
    (∀ p ∈ r.placed around, P p.record) → ∀ p ∈ r.placed around, ∀ s ∈ p.around, P s
  | ⟨typeName, identity, properties, subrecords⟩, h, p, hp => by
    rw [Record.placed_eq] at h hp
    obtain ⟨hr, hsubs⟩ := List.forall_mem_cons.1 h
    rcases List.mem_cons.1 hp with rfl | hp
    · exact haround
    · have hboth := List.forall_mem_cons.2 ⟨hr, haround⟩
      exact Record.forall_around_subrecords hboth subrecords hsubs p hp

/-- So it is for the records that a record owns. -/
theorem Record.forall_around_subrecords {around : List Record} (haround : ∀ s ∈ around, P s) :
    (rs : List Record) → (∀ p ∈ Record.subrecordsPlaced around rs, P p.record) →
    ∀ p ∈ Record.subrecordsPlaced around rs, ∀ s ∈ p.around, P s
  | [], _, p, hp => absurd hp List.not_mem_nil
  | r :: rs, h, p, hp => by
    rw [Record.subrecordsPlaced] at h hp
    obtain ⟨hr, hrs⟩ := List.forall_mem_append.1 h
    rcases List.mem_append.1 hp with hp | hp
    · exact Record.forall_around haround r hr p hp
    · exact Record.forall_around_subrecords haround rs hrs p hp

end

end Around

end GameContent
