import GameContent.Text.Blank
import Mathlib.Data.List.DropRight

/-!
# `Proofs.Text.Trimming` — what trimming takes away and what it keeps

Trimming removes a blank beginning and a blank end, and nothing else (`exists_eq_trim`). So blanks
at the ends of a text never show in the trimmed text (`trim_blank_append`, `trim_append_blank`),
and a character that is not blank stops the trimming on its side.
-/

namespace GameContent
namespace Text

/-- A text of blanks only. -/
def Blank (cs : List Char) : Prop := ∀ c ∈ cs, isBlank c = true

theorem blank_nil : Blank [] := by simp [Blank]

theorem blank_append {a b : List Char} : Blank (a ++ b) ↔ Blank a ∧ Blank b := by
  simp [Blank, or_imp, forall_and]

theorem blank_replicate_space (n : Nat) : Blank (List.replicate n ' ') := by
  intro c hc
  rw [List.eq_of_mem_replicate hc]
  decide

/-- A separator that is not blank does not occur in a blank text. -/
theorem Blank.not_mem {cs : List Char} (h : Blank cs) {c : Char} (hc : isBlank c = false) :
    c ∉ cs := by
  intro hm
  rw [h c hm] at hc
  exact absurd hc (by simp)

theorem trimEnd_eq (cs : List Char) : trimEnd cs = cs.rdropWhile isBlank := rfl

/-- **Trimming removes blanks at the ends only.** -/
theorem exists_eq_trim (cs : List Char) :
    ∃ before after, Blank before ∧ Blank after ∧ cs = before ++ (trim cs ++ after) := by
  refine ⟨cs.takeWhile isBlank, (trimStart cs).rtakeWhile isBlank, ?_, ?_, ?_⟩
  · exact fun c hc => List.mem_takeWhile_imp hc
  · exact fun c hc => List.mem_rtakeWhile_imp hc
  · rw [trim, trimEnd_eq, List.rdropWhile_append_rtakeWhile, trimStart,
      List.takeWhile_append_dropWhile]

theorem mem_of_mem_trim {c : Char} {cs : List Char} (h : c ∈ trim cs) : c ∈ cs := by
  obtain ⟨before, after, -, -, he⟩ := exists_eq_trim cs
  rw [he]
  exact List.mem_append_right _ (List.mem_append_left _ h)

theorem trim_eq_nil_iff {cs : List Char} : trim cs = [] ↔ Blank cs := by
  constructor
  · intro h
    obtain ⟨before, after, hb, ha, he⟩ := exists_eq_trim cs
    rw [he, h]
    exact blank_append.2 ⟨hb, ha⟩
  · intro h
    have hs : trimStart cs = [] := List.dropWhile_eq_nil_iff.2 h
    rw [trim, hs]
    rfl

/-- A text without blanks is trimmed already. -/
theorem trim_eq_self {cs : List Char} (h : ∀ c ∈ cs, isBlank c = false) : trim cs = cs := by
  obtain ⟨before, after, hb, ha, he⟩ := exists_eq_trim cs
  have hnil : ∀ blanks, Blank blanks → blanks ⊆ cs → blanks = [] := by
    intro blanks hblank hsub
    refine List.eq_nil_iff_forall_not_mem.2 ?_
    intro c hc
    exact hblank.not_mem (h c (hsub hc)) hc
  obtain rfl := hnil before hb (he ▸ List.subset_append_left _ _)
  obtain rfl := hnil after ha (he ▸ List.subset_append_right _ _)
  simpa using he.symm

theorem isBlank_of_isDigit {c : Char} (h : c.isDigit = true) : isBlank c = false := by
  have hrange : 48 ≤ c.toNat ∧ c.toNat ≤ 57 := by
    simpa [Char.isDigit, UInt32.le_iff_toNat_le] using h
  refine Bool.eq_false_iff.2 ?_
  intro hblank
  obtain ⟨r, hr, hfirst, hlast⟩ := inRanges_iff.1 hblank
  have hapart : ∀ r ∈ blankRanges, r.last < 48 ∨ 57 < r.first := by decide
  have := hapart r hr
  omega

theorem trimStart_blank_append {a b : List Char} (h : Blank a) :
    trimStart (a ++ b) = trimStart b :=
  List.dropWhile_append_of_pos h

/-- Blanks in front of a text do not matter. -/
theorem trim_blank_append {a b : List Char} (h : Blank a) : trim (a ++ b) = trim b := by
  rw [trim, trimStart_blank_append h, trim]

theorem trimEnd_append_blank {a b : List Char} (h : Blank b) : trimEnd (a ++ b) = trimEnd a := by
  rw [trimEnd, List.reverse_append, trimStart_blank_append (fun c hc => h c (List.mem_reverse.1 hc)),
    trimEnd]

/-- Blanks at the end of a text do not matter. -/
theorem trim_append_blank {a b : List Char} (h : Blank b) : trim (a ++ b) = trim a := by
  by_cases ha : Blank a
  · rw [trim_eq_nil_iff.2 ha, trim_eq_nil_iff.2 (blank_append.2 ⟨ha, h⟩)]
  · have hs : trimStart (a ++ b) = trimStart a ++ b := by
      have hne : ¬(a.dropWhile isBlank).isEmpty := by
        rw [List.isEmpty_iff, List.dropWhile_eq_nil_iff]
        exact ha
      rw [trimStart, List.dropWhile_append, if_neg hne, trimStart]
    rw [trim, hs, trimEnd_append_blank h, trim]

theorem trim_trim (cs : List Char) : trim (trim cs) = trim cs := by
  obtain ⟨before, after, hb, ha, he⟩ := exists_eq_trim cs
  conv_rhs => rw [he, trim_blank_append hb, trim_append_blank ha]

/-- A character that is not blank shields what stands before it from the trimming of the end. -/
theorem trimEnd_append_cons {c : Char} (h : isBlank c = false) (a b : List Char) :
    trimEnd (a ++ c :: b) = a ++ c :: trimEnd b := by
  induction b using List.reverseRecOn with
  | nil =>
    rw [trimEnd_eq, List.rdropWhile_concat_neg _ _ _ (by simp [h])]
    rfl
  | append_singleton b d ih =>
    by_cases hd : isBlank d = true
    · have hbl : Blank [d] := by simpa [Blank] using hd
      rw [← List.cons_append, ← List.append_assoc, trimEnd_append_blank hbl, ih,
        trimEnd_append_blank hbl]
    · rw [← List.cons_append, ← List.append_assoc, trimEnd_eq, trimEnd_eq,
        List.rdropWhile_concat_neg _ _ _ hd, List.rdropWhile_concat_neg _ _ _ hd]
      simp

/-- A text around a character that is not blank is trimmed on both sides of it by itself. -/
theorem trim_append_cons {c : Char} (h : isBlank c = false) (a b : List Char) :
    trim (a ++ c :: b) = trimStart a ++ c :: trimEnd b := by
  have hs : trimStart (a ++ c :: b) = trimStart a ++ c :: b := by
    by_cases ha : (a.dropWhile isBlank).isEmpty
    · rw [trimStart, List.dropWhile_append, if_pos ha, trimStart, List.isEmpty_iff.1 ha]
      simp [h]
    · rw [trimStart, List.dropWhile_append, if_neg ha, trimStart]
  rw [trim, hs, trimEnd_append_cons h]

theorem trim_trimStart (cs : List Char) : trim (trimStart cs) = trim cs := by
  conv_rhs => rw [← List.takeWhile_append_dropWhile (p := isBlank) (l := cs)]
  rw [trim_blank_append (fun c hc => List.mem_takeWhile_imp hc), trimStart]

theorem trim_trimEnd (cs : List Char) : trim (trimEnd cs) = trim cs := by
  conv_rhs => rw [← List.rdropWhile_append_rtakeWhile (p := isBlank) (l := cs)]
  rw [trim_append_blank (fun c hc => List.mem_rtakeWhile_imp hc), trimEnd_eq]

end Text
end GameContent
