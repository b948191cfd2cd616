import GameContent.Inspection
import GameContent.Proofs.Artifact.OwnLines
import GameContent.Proofs.FirstOccurrences

/-!
# `Proofs.Inspection` — the summary of an artifact counts its blocks

The types are counted as the blocks go by: a type that was met before is counted up where it stands
in the tally, and a new one is put at its end. So after any number of blocks the tally lists the
types that were met, each once and in the order in which they first came up, with the number of
blocks that have them (`tally_eq`). Each block is counted in one place, and the counts add up to the
number of all blocks (`sum_tally`).

## Contents
- `shownType` and `shownId`: what a summary should say of a block.
- `summaryLines` and `Summarizes`: what it should say of all of them.
- **Counting.** One block, and all of them.
- **Summaries.** The text, its lines and its counts.
-/

namespace GameContent
namespace Inspection
open Text

/-! ## What is expected -/

/-- What is shown as the type of a block: the text of its `__type__`, whatever kind of value that
    is, or nothing if it has none. -/
def shownType (p : Properties) : String :=
  match p.get? "__type__" with
  | some type => type.render
  | none => ""

/-- What is shown as the id of a block: the text of its `ID`, of a list that of the first item, or a
    dash if it has none. -/
def shownId (p : Properties) : String :=
  match p.get? "ID" with
  | some (.list (id :: _)) => id.render
  | some (.list []) => ""
  | some id => id.render
  | none => "-"

/-- The line of a block: its type, its id and the number of its properties, less one for the
    type. -/
def blockText (p : Properties) : String :=
  "[" ++ shownType p ++ "] " ++ shownId p ++ " (" ++ toString (p.entries.length - 1) ++ " fields)"

/-- The line of a type and its count. -/
def typeText (e : String × Nat) : String :=
  "  " ++ e.1 ++ ": " ++ toString e.2

/-- The lines of a summary: those of the blocks, the total, and those of the counted types. -/
def summaryLines (ps : List Properties) (counts : List (String × Nat)) : List String :=
  ps.map blockText ++ (toString ps.length ++ " records") :: counts.map typeText

/-- The types and ids that are shown for the blocks hold no line break. -/
def Unbroken (ps : List Properties) : Prop :=
  ∀ p ∈ ps, '\n' ∉ (shownType p).toList ∧ '\n' ∉ (shownId p).toList

instance (ps : List Properties) : Decidable (Unbroken ps) :=
  inferInstanceAs (Decidable (∀ p ∈ ps, _))

/-- The summary of the blocks shows these counts, and they divide the blocks by their types. -/
structure Summarizes (ps : List Properties) (counts : List (String × Nat)) : Prop where
  /-- The summary is made of a line for each block in order, the total, and a line for each type. -/
  text : summarize ps = String.join ((summaryLines ps counts).map (· ++ "\n"))
  /-- It splits into these lines, if no type or id brings a line break of its own. -/
  lines : Unbroken ps → linesOf (summarize ps) = summaryLines ps counts ++ [""]
  /-- No type is named twice. -/
  once : (counts.map Prod.fst).Nodup
  /-- The types that are named are those of the blocks. -/
  named : ∀ type, type ∈ counts.map Prod.fst ↔ ∃ p ∈ ps, shownType p = type
  /-- They are named in the order in which they first occur. -/
  order : (counts.map Prod.fst).Pairwise fun a b =>
    (ps.map shownType).idxOf a < (ps.map shownType).idxOf b
  /-- The count of a type is the number of the blocks that have it. -/
  number : ∀ e ∈ counts, e.2 = ps.countP fun p => shownType p = e.1
  /-- There is at least one. -/
  positive : ∀ e ∈ counts, 0 < e.2
  /-- The counts add up to the number of the blocks. -/
  total : (counts.map Prod.snd).sum = ps.length

/-! ## Counting -/

/-- **One more block** counts its type up, or adds it at the end. -/
theorem count_map {types : List String} (h : types.Nodup) (n : String → Nat) (type : String) :
    count type (types.map fun t => (t, n t))
      = if type ∈ types then types.map fun t => (t, if t = type then n t + 1 else n t)
        else types.map (fun t => (t, n t)) ++ [(type, 1)] := by
  induction types with
  | nil => rfl
  | cons t types ih =>
    obtain ⟨hnot, htypes⟩ := List.nodup_cons.1 h
    rw [List.map_cons, List.map_cons, count]
    by_cases ht : t = type
    · subst ht
      have hrest : types.map (fun s => (s, if s = t then n s + 1 else n s))
          = types.map fun s => (s, n s) := by
        refine List.map_congr_left fun s hs => ?_
        have hne : s ≠ t := fun he => hnot (he ▸ hs)
        rw [if_neg hne]
      rw [if_pos rfl, if_pos List.mem_cons_self, if_pos rfl, hrest]
    · have hmem : type ∈ t :: types ↔ type ∈ types := by
        rw [List.mem_cons]
        exact or_iff_right fun he => ht he.symm
      simp only [if_neg ht, ih htypes, hmem]
      split <;> rfl

theorem tally_concat (types : List String) (type : String) :
    tally (types ++ [type]) = count type (tally types) := by
  rw [tally, List.foldl_append]
  rfl

/-- **All blocks.** Each type is listed once, where it first occurs, with the number of its
    occurrences. -/
theorem tally_eq (types : List String) :
    tally types = types.eraseDups.map fun t => (t, types.count t) := by
  induction types using List.reverseRecOn with
  | nil => rfl
  | append_singleton types type ih =>
    rw [tally_concat, ih, count_map (nodup_eraseDups types), eraseDups_concat, List.map_append]
    simp only [List.mem_eraseDups, List.count_append, List.count_singleton]
    by_cases h : type ∈ types
    · rw [if_pos h, if_pos h, List.map_nil, List.append_nil]
      refine List.map_congr_left fun t _ => ?_
      by_cases ht : t = type
      · simp [ht]
      · have hne : ¬type = t := fun he => ht he.symm
        simp [ht, hne]
    · have hold : ∀ t ∈ types.eraseDups, (t, types.count t)
          = (t, types.count t + if type == t then 1 else 0) := by
        intro t ht
        have hne : ¬type = t := fun he => h (he ▸ List.mem_eraseDups.1 ht)
        simp [hne]
      rw [if_neg h, if_neg h, List.map_congr_left hold]
      simp [List.count_eq_zero_of_not_mem h]

example : tally ["Crop", "Tool", "Crop"] = [("Crop", 2), ("Tool", 1)] := by decide

theorem map_fst_tally (types : List String) : (tally types).map Prod.fst = types.eraseDups := by
  rw [tally_eq, List.map_map]
  exact List.map_id'' (fun _ => rfl) _

theorem of_mem_tally {types : List String} {e : String × Nat} (h : e ∈ tally types) :
    e.1 ∈ types ∧ e.2 = types.count e.1 := by
  rw [tally_eq] at h
  obtain ⟨type, htype, rfl⟩ := List.mem_map.1 h
  exact ⟨List.mem_eraseDups.1 htype, rfl⟩

theorem sum_count (type : String) (counts : List (String × Nat)) :
    ((count type counts).map Prod.snd).sum = (counts.map Prod.snd).sum + 1 := by
  induction counts with
  | nil => rfl
  | cons e es ih =>
    rw [count]
    split
    · simp only [List.map_cons, List.sum_cons]
      omega
    · simp only [List.map_cons, List.sum_cons, ih]
      omega

/-- Each block is counted once. -/
theorem sum_tally (types : List String) : ((tally types).map Prod.snd).sum = types.length := by
  induction types using List.reverseRecOn with
  | nil => rfl
  | append_singleton types type ih =>
    rw [tally_concat, sum_count, ih, List.length_append, List.length_singleton]

/-! ## Summaries -/

theorem typeOf_eq : typeOf = shownType := by
  funext p
  unfold typeOf shownType
  show (p.get? "__type__").elim "" Value.render = _
  cases p.get? "__type__" <;> rfl

theorem idOf_eq : idOf = shownId := by
  funext p
  unfold idOf shownId
  cases p.get? "ID" with
  | none => rfl
  | some id =>
    cases id with
    | list ids => cases ids <;> rfl
    | _ => rfl

theorem summarize_eq (ps : List Properties) :
    summarize ps
      = String.join ((summaryLines ps (tally (ps.map shownType))).map (· ++ "\n")) := by
  have hblocks : ps.map recordLine = (ps.map blockText).map (· ++ "\n") := by
    rw [List.map_map]
    refine List.map_congr_left fun p _ => ?_
    have hend : " fields)\n" = " fields)" ++ "\n" := rfl
    show recordLine p = blockText p ++ "\n"
    simp only [recordLine, blockText, typeOf_eq, idOf_eq, Properties.size, hend,
      String.append_assoc]
  have htypes : ∀ counts : List (String × Nat),
      counts.map (fun e => typeLine e.1 e.2) = (counts.map typeText).map (· ++ "\n") := by
    intro counts
    rw [List.map_map]
    rfl
  have hend : " records\n" = " records" ++ "\n" := rfl
  simp only [summarize, summaryLines, typeOf_eq, hblocks, htypes, hend, List.map_append,
    List.map_cons, String.join_append, String.join_cons, String.append_assoc]

theorem newline_not_mem_toDigits (n : Nat) : '\n' ∉ Nat.toDigits 10 n := by
  intro h
  have hdigit := Nat.isDigit_of_mem_toDigits (by decide) (by decide) h
  exact absurd hdigit (by decide)

/-- The lines of a summary hold no line break, if the types and the ids do not. -/
theorem newline_not_mem_summaryLines {ps : List Properties} (h : Unbroken ps) :
    ∀ line ∈ summaryLines ps (tally (ps.map shownType)), '\n' ∉ line.toList := by
  intro line hline
  rcases List.mem_append.1 hline with hblock | hrest
  · obtain ⟨p, hp, rfl⟩ := List.mem_map.1 hblock
    obtain ⟨htype, hid⟩ := h p hp
    have hsize := newline_not_mem_toDigits (p.entries.length - 1)
    simp [blockText, htype, hid, hsize]
  rcases List.mem_cons.1 hrest with rfl | htypes
  · have htotal := newline_not_mem_toDigits ps.length
    simp [htotal]
  · obtain ⟨e, he, rfl⟩ := List.mem_map.1 htypes
    obtain ⟨p, hp, htype⟩ := List.mem_map.1 (of_mem_tally he).1
    have hname : '\n' ∉ e.1.toList := htype ▸ (h p hp).1
    have hnumber := newline_not_mem_toDigits e.2
    simp [typeText, hname, hnumber]

theorem linesOf_join {lines : List String} (h : ∀ line ∈ lines, '\n' ∉ line.toList) :
    linesOf (String.join (lines.map (· ++ "\n"))) = lines ++ [""] := by
  have htext : (String.join (lines.map (· ++ "\n"))).toList
      = (lines.map String.toList).flatMap (· ++ ['\n']) := by
    simp [String.toList_join, List.flatMap_map]
  have hparts : ∀ p ∈ lines.map String.toList, '\n' ∉ p := by
    intro p hp
    obtain ⟨line, hline, rfl⟩ := List.mem_map.1 hp
    exact h line hline
  rw [linesOf, htext, pieces_flatMap_concat hparts, List.map_append, List.map_map]
  simp

/-- **The summary divides the blocks by their types**, and names what it has counted. -/
theorem summarizes_tally (ps : List Properties) : Summarizes ps (tally (ps.map typeOf)) := by
  rw [typeOf_eq]
  refine ⟨summarize_eq ps, ?_, ?_, ?_, ?_, ?_, ?_, ?_⟩
  · intro h
    rw [summarize_eq, linesOf_join (newline_not_mem_summaryLines h)]
  · rw [map_fst_tally]
    exact nodup_eraseDups _
  · intro type
    rw [map_fst_tally, List.mem_eraseDups, List.mem_map]
  · rw [map_fst_tally]
    exact pairwise_idxOf_eraseDups _
  · intro e he
    rw [(of_mem_tally he).2, List.count_eq_countP, List.countP_map]
    rfl
  · intro e he
    obtain ⟨hmem, hcount⟩ := of_mem_tally he
    rw [hcount]
    exact List.count_pos_iff.2 hmem
  · rw [sum_tally, List.length_map]

/-- Blocks of a shed. Two of them are of the type `Tool`, three have a list, a number and a null for
    their types, and one has none. -/
def shed : List Properties :=
  [.ofList [("__type__", "Tool"), ("ID", .list ["hoe", "rake"]), ("name", "Hoe")],
    .ofList [("name", "Dust")],
    .ofList [("__type__", .list ["Tool", .null, "Pot"]), ("ID", "jug")],
    .ofList [("__type__", .int 7), ("ID", .list [])],
    .ofList [("__type__", "Tool")],
    .ofList [("__type__", .null), ("ID", .int 3)]]

/-- The block without a type and the one with a null count as one type, with an empty name. -/
theorem summarizes_tally_shed :
    linesOf (summarize shed)
      = ["[Tool] hoe (2 fields)", "[] - (0 fields)", "[Tool,Pot] jug (1 fields)",
        "[7]  (1 fields)", "[Tool] - (0 fields)", "[] 3 (1 fields)", "6 records", "  Tool: 2",
        "  : 2", "  Tool,Pot: 1", "  7: 1", ""] := by
  have hunbroken : Unbroken shed := by decide +kernel
  rw [(summarizes_tally shed).lines hunbroken]
  decide +kernel

end Inspection
end GameContent
