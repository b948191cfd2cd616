import GameContent.Proofs.Text.Trimming
import GameContent.Text.Pieces

/-!
# `Proofs.Text.Cutting` — cutting texts that were joined

Cutting at a separator undoes joining with it, as far as the joined parts do not hold it themselves
(`pieces_eq_cons_iff`, `cut_append_cons`). Trimming a text before it is cut changes nothing once the
pieces are trimmed too (`map_trim_pieces_trim`).
-/

namespace GameContent
namespace Text

variable {sep : Char}

theorem pieces_of_not_mem {cs : List Char} (h : sep ∉ cs) : pieces sep cs = [cs] := by
  induction cs with
  | nil => rfl
  | cons c cs ih =>
    have hne : c ≠ sep := fun he => h (he ▸ List.mem_cons_self)
    have hrest : sep ∉ cs := fun hm => h (List.mem_cons_of_mem _ hm)
    rw [pieces, if_neg hne, ih hrest, extendFirst]

/-- There is one piece more than separators. -/
theorem length_pieces (sep : Char) (cs : List Char) :
    (pieces sep cs).length = cs.count sep + 1 := by
  induction cs with
  | nil => rfl
  | cons c cs ih =>
    by_cases hc : c = sep
    · rw [pieces, if_pos hc, List.length_cons, ih, hc, List.count_cons_self]
    · rw [pieces, if_neg hc, List.count_cons_of_ne hc, ← ih]
      cases hcs : pieces sep cs with
      | nil => exact absurd hcs (pieces_ne_nil sep cs)
      | cons p ps => rfl

/-- **Pieces of a joined text.** The last piece of the first part and the first piece of the second
    one become one piece. -/
theorem exists_pieces_append (sep : Char) (a : List Char) :
    ∃ front last, pieces sep a = front ++ [last] ∧
      ∀ b p ps, pieces sep b = p :: ps → pieces sep (a ++ b) = front ++ (last ++ p) :: ps := by
  induction a with
  | nil => exact ⟨[], [], rfl, fun b p ps hb => hb⟩
  | cons c a ih =>
    obtain ⟨front, last, ha, hjoin⟩ := ih
    by_cases hc : c = sep
    · refine ⟨[] :: front, last, ?_, ?_⟩
      · rw [pieces, if_pos hc, ha, List.cons_append]
      · intro b p ps hb
        rw [List.cons_append, pieces, if_pos hc, hjoin b p ps hb, List.cons_append]
    · cases front with
      | nil =>
        refine ⟨[], c :: last, ?_, ?_⟩
        · rw [pieces, if_neg hc, ha]
          rfl
        · intro b p ps hb
          rw [List.cons_append, pieces, if_neg hc, hjoin b p ps hb]
          rfl
      | cons q front =>
        refine ⟨(c :: q) :: front, last, ?_, ?_⟩
        · rw [pieces, if_neg hc, ha]
          rfl
        · intro b p ps hb
          rw [List.cons_append, pieces, if_neg hc, hjoin b p ps hb]
          rfl

/-- Cutting undoes joining with the separator. -/
theorem pieces_append_cons (sep : Char) (a b : List Char) :
    pieces sep (a ++ sep :: b) = pieces sep a ++ pieces sep b := by
  obtain ⟨front, last, ha, hjoin⟩ := exists_pieces_append sep a
  have hb : pieces sep (sep :: b) = [] :: pieces sep b := by rw [pieces, if_pos rfl]
  rw [hjoin _ _ _ hb, ha, List.append_nil, List.append_assoc, List.singleton_append]

/-- A blank piece that is joined to the end of a text is lost in the trimming. -/
theorem map_trim_pieces_append {a b p : List Char} {ps : List (List Char)}
    (hb : pieces sep b = p :: ps) (hp : Blank p) :
    (pieces sep (a ++ b)).map trim = (pieces sep a).map trim ++ ps.map trim := by
  obtain ⟨front, last, ha, hjoin⟩ := exists_pieces_append sep a
  rw [hjoin b p ps hb, ha]
  simp [trim_append_blank hp]

theorem map_trim_pieces_append_blank {a b : List Char} (hsep : isBlank sep = false)
    (hb : Blank b) : (pieces sep (a ++ b)).map trim = (pieces sep a).map trim := by
  rw [map_trim_pieces_append (pieces_of_not_mem (hb.not_mem hsep)) hb, List.map_nil,
    List.append_nil]

/-- A part without separators in front of a text goes to its first piece. -/
theorem pieces_append_of_not_mem {a b p : List Char} {ps : List (List Char)} (ha : sep ∉ a)
    (hb : pieces sep b = p :: ps) : pieces sep (a ++ b) = (a ++ p) :: ps := by
  obtain ⟨front, last, hfront, hjoin⟩ := exists_pieces_append sep a
  rw [pieces_of_not_mem ha] at hfront
  obtain ⟨rfl, rfl⟩ : front = [] ∧ last = a := by
    cases front with
    | nil => exact ⟨rfl, by simpa using hfront.symm⟩
    | cons q front => simp at hfront
  exact hjoin b p ps hb

theorem map_trim_pieces_blank_append {a b : List Char} (hsep : isBlank sep = false)
    (ha : Blank a) : (pieces sep (a ++ b)).map trim = (pieces sep b).map trim := by
  cases hb : pieces sep b with
  | nil => exact absurd hb (pieces_ne_nil sep b)
  | cons p ps =>
    rw [pieces_append_of_not_mem (ha.not_mem hsep) hb]
    simp [trim_blank_append ha]

/-- **Trimming before cutting.** The trimmed pieces of a text are those of the trimmed text. -/
theorem map_trim_pieces_trim (hsep : isBlank sep = false) (cs : List Char) :
    (pieces sep (trim cs)).map trim = (pieces sep cs).map trim := by
  obtain ⟨before, after, hb, ha, he⟩ := exists_eq_trim cs
  conv_rhs => rw [he, map_trim_pieces_blank_append hsep hb, map_trim_pieces_append_blank hsep ha]

/-- No piece holds the separator. -/
theorem not_mem_of_mem_pieces {cs p : List Char} (h : p ∈ pieces sep cs) : sep ∉ p := by
  induction cs generalizing p with
  | nil =>
    rw [List.mem_singleton.1 h]
    exact List.not_mem_nil
  | cons c cs ih =>
    by_cases hc : c = sep
    · rw [pieces, if_pos hc] at h
      rcases List.mem_cons.1 h with rfl | hm
      · exact List.not_mem_nil
      · exact ih hm
    · rw [pieces, if_neg hc] at h
      cases hcs : pieces sep cs with
      | nil => exact absurd hcs (pieces_ne_nil sep cs)
      | cons q qs =>
        rw [hcs] at h ih
        rcases List.mem_cons.1 h with rfl | hm
        · rw [List.mem_cons, not_or]
          exact ⟨fun he => hc he.symm, ih List.mem_cons_self⟩
        · exact ih (List.mem_cons_of_mem _ hm)

/-- The pieces and the separators between them make up the text. -/
theorem eq_append_flatMap_of_pieces {cs p : List Char} {ps : List (List Char)}
    (h : pieces sep cs = p :: ps) : cs = p ++ ps.flatMap (sep :: ·) := by
  induction cs generalizing p ps with
  | nil =>
    obtain ⟨rfl, rfl⟩ := List.cons.inj h
    rfl
  | cons c cs ih =>
    by_cases hc : c = sep
    · rw [pieces, if_pos hc] at h
      obtain ⟨rfl, rfl⟩ := List.cons.inj h
      cases hcs : pieces sep cs with
      | nil => exact absurd hcs (pieces_ne_nil sep cs)
      | cons q qs => rw [ih hcs, hc, List.flatMap_cons, List.nil_append, List.cons_append]
    · cases hcs : pieces sep cs with
      | nil => exact absurd hcs (pieces_ne_nil sep cs)
      | cons q qs =>
        rw [pieces, if_neg hc, hcs] at h
        obtain ⟨rfl, rfl⟩ := List.cons.inj h
        rw [ih hcs, List.cons_append]

/-- **Cutting and joining** undo each other: the pieces of a text are the parts without separators
    that make it up. -/
theorem pieces_eq_cons_iff {cs p : List Char} {ps : List (List Char)} :
    pieces sep cs = p :: ps
      ↔ (∀ q ∈ p :: ps, sep ∉ q) ∧ cs = p ++ ps.flatMap (sep :: ·) := by
  constructor
  · intro h
    exact ⟨fun q hq => not_mem_of_mem_pieces (h ▸ hq), eq_append_flatMap_of_pieces h⟩
  · rintro ⟨hsep, rfl⟩
    induction ps generalizing p with
    | nil => rw [List.flatMap_nil, List.append_nil, pieces_of_not_mem (hsep p List.mem_cons_self)]
    | cons q ps ih =>
      have hp := hsep p List.mem_cons_self
      have hps := ih fun r hr => hsep r (List.mem_cons_of_mem _ hr)
      rw [List.flatMap_cons, List.cons_append, pieces_append_cons, pieces_of_not_mem hp, hps,
        List.singleton_append]

/-- Where each part is ended by the separator, nothing is left behind the last one. -/
theorem pieces_flatMap_concat {parts : List (List Char)} (h : ∀ p ∈ parts, sep ∉ p) :
    pieces sep (parts.flatMap (· ++ [sep])) = parts ++ [[]] := by
  induction parts with
  | nil => rfl
  | cons p parts ih =>
    obtain ⟨hp, hparts⟩ := List.forall_mem_cons.1 h
    rw [List.flatMap_cons, List.append_assoc, List.singleton_append, pieces_append_cons,
      pieces_of_not_mem hp, ih hparts]
    rfl

theorem cut_append_cons {a : List Char} (h : sep ∉ a) (b : List Char) :
    cut sep (a ++ sep :: b) = some (a, b) := by
  induction a with
  | nil => simp [cut]
  | cons c a ih =>
    have hne : c ≠ sep := fun he => h (he ▸ List.mem_cons_self)
    have hrest : sep ∉ a := fun hm => h (List.mem_cons_of_mem _ hm)
    rw [List.cons_append, cut, if_neg hne, ih hrest]
    rfl

theorem cut_eq_none_iff {cs : List Char} : cut sep cs = none ↔ sep ∉ cs := by
  induction cs with
  | nil => simp [cut]
  | cons c cs ih =>
    by_cases hc : c = sep
    · simp [cut, hc]
    · have hc' : ¬sep = c := fun he => hc he.symm
      simp [cut, hc, hc', ih]

/-- A cut takes a text apart at its first separator. -/
theorem cut_eq_some_iff {cs a b : List Char} :
    cut sep cs = some (a, b) ↔ sep ∉ a ∧ cs = a ++ sep :: b := by
  constructor
  · intro h
    induction cs generalizing a with
    | nil => simp [cut] at h
    | cons c cs ih =>
      by_cases hc : c = sep
      · rw [cut, if_pos hc] at h
        obtain ⟨rfl, rfl⟩ := Prod.mk.inj (Option.some.inj h)
        exact ⟨List.not_mem_nil, by rw [hc]; rfl⟩
      · rw [cut, if_neg hc, Option.map_eq_some_iff] at h
        obtain ⟨⟨a', b'⟩, hcut, he⟩ := h
        obtain ⟨rfl, rfl⟩ := Prod.mk.inj he
        obtain ⟨hm, hcs⟩ := ih hcut
        refine ⟨?_, by rw [hcs]; rfl⟩
        rw [List.mem_cons]
        exact fun hor => hor.elim (fun he => hc he.symm) hm
  · rintro ⟨h, rfl⟩
    exact cut_append_cons h b

end Text
end GameContent
