import GameContent.Artifact.Encoding
import GameContent.Proofs.Collection.Patching
import Mathlib.Logic.Relation

/-!
# `Proofs.Artifact.Nesting` — nested collections do not show in the artifact

The items of a collection are written with one blank line between any two of them, and this is done
again at each level of nesting. If no nested collection is empty, each level writes at least one
record or comment, so the separators of the levels fit together: the text is that of the records
and comments in depth-first order (`Collection.encode_eq_leaves`), and where the nested collections
begin and end does not show in it. An empty one does show: it is written as nothing between two
separators.

## Contents
- `leaves` and `filled`: the records and comments of a collection, and that each level has some.
- `Collection.Regroups`: items move across the border of a nested collection.
- **Writing.** The text in terms of the leaves.
- **Moving.** What is kept by a move, and the result.
-/

namespace GameContent

mutual

/-- The records and comments of an item, depth-first. -/
def Item.leaves : Item → List Item
  | .record r => [.record r]
  | .comment text => [.comment text]
  | .collection items => Collection.leaves items

/-- The records and comments of a collection, depth-first: the collection without its nesting. -/
def Collection.leaves : List Item → List Item
  | [] => []
  | item :: items => item.leaves ++ Collection.leaves items

end

mutual

/-- Whether the item is a record, a comment, or a collection with items at every level. -/
def Item.filled : Item → Bool
  | .record _ => true
  | .comment _ => true
  | .collection items => !items.isEmpty && Collection.filled items

/-- Whether every nested collection, at any depth, has items. The collection itself may be empty. -/
def Collection.filled : List Item → Bool
  | [] => true
  | item :: items => item.filled && Collection.filled items

end

/-- Items move into a nested collection without being reordered. Read backwards, they move out of
    it. The collection is not empty before or after. -/
inductive Collection.Regroups : Collection → Collection → Prop where
  /-- The items in front of a nested collection become its first ones. -/
  | front (left moved inner right : List Item) (h : inner ≠ []) :
      Regroups (left ++ (moved ++ .collection inner :: right))
        (left ++ .collection (moved ++ inner) :: right)
  /-- The items behind it become its last ones. -/
  | back (left inner moved right : List Item) (h : inner ≠ []) :
      Regroups (left ++ .collection inner :: (moved ++ right))
        (left ++ .collection (inner ++ moved) :: right)
  /-- Some items become a nested collection of their own. -/
  | around (left moved right : List Item) (h : moved ≠ []) :
      Regroups (left ++ (moved ++ right)) (left ++ .collection moved :: right)
  /-- Items move like this inside a nested collection. -/
  | inside (left right : List Item) {inner inner' : List Item} (h : Regroups inner inner') :
      Regroups (left ++ .collection inner :: right) (left ++ .collection inner' :: right)

/-- The nesting of a collection does not show in its text. -/
structure Collection.NestingHidden (indent : Nat) (items : Collection) : Prop where
  /-- What is left without the nesting are records and comments, … -/
  loose : ∀ leaf ∈ leaves items, (∃ r, leaf = .record r) ∨ ∃ text, leaf = .comment text
  /-- … the records in the depth-first order in which they are looked up. -/
  records : records (leaves items) = records items
  /-- The text is that of each of them, with one blank line between any two. -/
  text : items.encode indent = "\n\n".intercalate ((leaves items).map (Item.encode indent))
  /-- It is the text of the collection without the nesting. -/
  flat : items.encode indent = Collection.encode indent (leaves items)
  /-- Any other nesting of the same records and comments, without empty collections, has the same
      text. -/
  shape : ∀ other, filled other = true → leaves other = leaves items →
    Collection.encode indent other = items.encode indent
  /-- Moving items into and out of nested collections, any number of times, keeps the text. -/
  moves : ∀ other, Relation.EqvGen Regroups items other →
    Collection.encode indent other = items.encode indent

/-! ## Writing -/

theorem Collection.encodeItems_eq_map (indent : Nat) (items : List Item) :
    encodeItems indent items = items.map (Item.encode indent) := by
  induction items with
  | nil => rfl
  | cons item items ih => rw [encodeItems, ih, List.map_cons]

mutual

/-- Each level has a record or a comment in it. -/
theorem Item.leaves_ne_nil : (item : Item) → item.filled = true → item.leaves ≠ []
  | .record _, _ => by simp [Item.leaves]
  | .comment _, _ => by simp [Item.leaves]
  | .collection items, h => by
    rw [Item.filled, Bool.and_eq_true] at h
    rw [Item.leaves]
    exact Collection.leaves_ne_nil items h.2 (by simpa using h.1)

theorem Collection.leaves_ne_nil : (items : List Item) → Collection.filled items = true →
    items ≠ [] → Collection.leaves items ≠ []
  | [], _, hne => absurd rfl hne
  | item :: items, h, _ => by
    rw [Collection.filled, Bool.and_eq_true] at h
    rw [Collection.leaves]
    exact List.append_ne_nil_of_left_ne_nil (item.leaves_ne_nil h.1) _

end

mutual

theorem Item.encode_eq_leaves (indent : Nat) : (item : Item) → item.filled = true →
    item.encode indent = "\n\n".intercalate (item.leaves.map (Item.encode indent))
  | .record _, _ => by simp [Item.leaves]
  | .comment _, _ => by simp [Item.leaves]
  | .collection items, h => by
    rw [Item.filled, Bool.and_eq_true] at h
    exact Collection.encode_eq_leaves indent items h.2

/-- **Writing level by level is writing the leaves.** -/
theorem Collection.encode_eq_leaves (indent : Nat) : (items : List Item) →
    Collection.filled items = true →
    Collection.encode indent items
      = "\n\n".intercalate ((Collection.leaves items).map (Item.encode indent))
  | [], _ => rfl
  | item :: items, h => by
    rw [Collection.filled, Bool.and_eq_true] at h
    have hitem := item.encode_eq_leaves indent h.1
    have hitems := Collection.encode_eq_leaves indent items h.2
    show "\n\n".intercalate (item.encode indent :: Collection.encodeItems indent items) = _
    by_cases hne : items = []
    · subst hne
      simp [Collection.encodeItems, Collection.leaves, hitem]
    · -- Both sides of the separator write something, so it stands between their leaves as well.
      have hleft : item.leaves.map (Item.encode indent) ≠ [] := by
        simpa using item.leaves_ne_nil h.1
      have hright : (Collection.leaves items).map (Item.encode indent) ≠ [] := by
        simpa using Collection.leaves_ne_nil items h.2 hne
      have hrest : Collection.encodeItems indent items ≠ [] := by
        simpa [Collection.encodeItems_eq_map] using hne
      rw [Collection.leaves, List.map_append, String.intercalate_append_of_ne_nil hleft hright,
        String.intercalate_cons_of_ne_nil hrest, ← hitem, ← hitems]
      rfl

end

/-! ## The collection without its nesting -/

theorem Collection.leaves_append (as bs : List Item) :
    leaves (as ++ bs) = leaves as ++ leaves bs := by
  induction as with
  | nil => rfl
  | cons a as ih => rw [List.cons_append, leaves, leaves, ih, List.append_assoc]

theorem Collection.filled_append (as bs : List Item) :
    filled (as ++ bs) = (filled as && filled bs) := by
  induction as with
  | nil => rfl
  | cons a as ih => rw [List.cons_append, filled, filled, ih, Bool.and_assoc]

mutual

theorem Item.loose_leaves : (item : Item) → ∀ leaf ∈ item.leaves,
    (∃ r, leaf = .record r) ∨ ∃ text, leaf = .comment text
  | .record r, _, h => .inl ⟨r, List.mem_singleton.1 h⟩
  | .comment text, _, h => .inr ⟨text, List.mem_singleton.1 h⟩
  | .collection items, leaf, h => Collection.loose_leaves items leaf h

theorem Collection.loose_leaves : (items : List Item) → ∀ leaf ∈ Collection.leaves items,
    (∃ r, leaf = .record r) ∨ ∃ text, leaf = .comment text
  | [], _, h => absurd h List.not_mem_nil
  | item :: items, leaf, h => by
    rcases List.mem_append.1 h with h | h
    · exact item.loose_leaves leaf h
    · exact Collection.loose_leaves items leaf h

end

mutual

theorem Item.records_leaves : (item : Item) → Collection.records item.leaves = item.records
  | .record _ => rfl
  | .comment _ => rfl
  | .collection items => Collection.records_leaves items

theorem Collection.records_leaves : (items : List Item) →
    Collection.records (Collection.leaves items) = Collection.records items
  | [] => rfl
  | item :: items => by
    rw [Collection.leaves, Collection.records_append, item.records_leaves,
      Collection.records_leaves items, Collection.records]

end

/-- Once the nesting is gone, there is none left to remove. -/
theorem Collection.encode_leaves (indent : Nat) (items : List Item) :
    Collection.encode indent (leaves items)
      = "\n\n".intercalate ((leaves items).map (Item.encode indent)) := by
  rw [Collection.encode, encodeItems_eq_map]

/-! ## Moving -/

/-- The leaves of a nested collection stand between those of its neighbours. -/
theorem Collection.leaves_nested (left inner right : List Item) :
    leaves (left ++ .collection inner :: right)
      = leaves left ++ (leaves inner ++ leaves right) := by
  rw [leaves_append, leaves, Item.leaves]

theorem Collection.filled_nested (left : List Item) {inner : List Item} (h : inner ≠ [])
    (right : List Item) :
    filled (left ++ .collection inner :: right)
      = (filled left && (filled inner && filled right)) := by
  rw [filled_append, filled, Item.filled, List.isEmpty_eq_false_iff.2 h, Bool.not_false,
    Bool.true_and]

namespace Collection.Regroups

variable {a b : Collection}

/-- A move keeps the records and comments and their order. -/
theorem leaves_eq (h : Regroups a b) : leaves a = leaves b := by
  induction h with
  | front left moved inner right _ =>
    rw [leaves_append, leaves_nested, leaves_nested, leaves_append, List.append_assoc]
  | back left inner moved right _ =>
    rw [leaves_nested, leaves_nested, leaves_append, leaves_append, List.append_assoc]
  | around left moved right _ => rw [leaves_nested, leaves_append, leaves_append]
  | inside left right _ ih => rw [leaves_nested, leaves_nested, ih]

/-- No collection is empty before or after it. -/
theorem ne_nil (h : Regroups a b) : a ≠ [] ∧ b ≠ [] := by
  cases h with
  | front left moved inner right _ => simp
  | back left inner moved right _ => simp
  | around left moved right hmoved => simp [hmoved]
  | inside left right _ => simp

/-- So it neither empties a nested collection nor fills one that was empty. -/
theorem filled_eq (h : Regroups a b) : filled a = filled b := by
  induction h with
  | front left moved inner right hinner =>
    have hboth : moved ++ inner ≠ [] := List.append_ne_nil_of_right_ne_nil _ hinner
    rw [filled_nested left hboth, filled_append, filled_nested moved hinner, filled_append,
      Bool.and_assoc]
  | back left inner moved right hinner =>
    have hboth : inner ++ moved ≠ [] := List.append_ne_nil_of_left_ne_nil hinner _
    rw [filled_nested left hboth, filled_nested left hinner, filled_append, filled_append,
      Bool.and_assoc]
  | around left moved right hmoved =>
    rw [filled_nested left hmoved, filled_append, filled_append]
  | inside left right hinner ih =>
    obtain ⟨hbefore, hafter⟩ := hinner.ne_nil
    rw [filled_nested left hbefore, filled_nested left hafter, ih]

end Collection.Regroups

/-- Any number of moves, in either direction, keeps the leaves and fills no collection. -/
theorem Collection.leaves_and_filled_of_moves {a b : Collection}
    (h : Relation.EqvGen Regroups a b) : leaves a = leaves b ∧ filled a = filled b := by
  induction h with
  | rel a b hmove => exact ⟨hmove.leaves_eq, hmove.filled_eq⟩
  | refl a => exact ⟨rfl, rfl⟩
  | symm a b _ ih => exact ⟨ih.1.symm, ih.2.symm⟩
  | trans a b c _ _ ih ih' => exact ⟨ih.1.trans ih'.1, ih.2.trans ih'.2⟩

/-- **Nesting does not show in the artifact.** The text of a collection without empty nested
    collections is that of its records and comments in depth-first order, and no move of items into
    or out of a nested collection changes it. -/
theorem Collection.nestingHidden (indent : Nat) {items : Collection} (h : filled items = true) :
    NestingHidden indent items := by
  have htext := encode_eq_leaves indent items h
  have hshape : ∀ other, filled other = true → leaves other = leaves items →
      Collection.encode indent other = Collection.encode indent items := by
    intro other hother hleaves
    rw [encode_eq_leaves indent other hother, htext, hleaves]
  refine ⟨loose_leaves items, records_leaves items, htext, ?_, hshape, ?_⟩
  · rw [htext, encode_leaves]
  · intro other hmoves
    obtain ⟨hleaves, hfilled⟩ := leaves_and_filled_of_moves hmoves
    exact hshape other (hfilled ▸ h) hleaves.symm

/-- A garden with a bed in it, and a plot in the bed. -/
def garden : Collection :=
  [.comment "Garden", .collection
    [.record ⟨"Bed", .named "bed", .ofList [("rows", .int 2)], []⟩,
      .collection [.comment "Plot", .record ⟨"Plot", .absent, ∅, []⟩]],
    .record ⟨"Gate", .absent, ∅, []⟩]

theorem nestingHidden_garden :
    Collection.filled garden = true
      ∧ garden.encode 2
        = "-- Garden\n\n[Bed]\n  ID=bed;\n  rows=2;\n\n-- Plot\n\n[Plot]\n\n[Gate]" := by
  have h : Collection.filled garden = true := by decide
  refine ⟨h, ?_⟩
  rw [(Collection.nestingHidden 2 h).flat]
  decide +kernel

end GameContent
