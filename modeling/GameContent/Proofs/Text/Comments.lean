import GameContent.Proofs.Text.Cutting
import Mathlib.Data.List.Forall2
import Mathlib.Data.List.Infix

/-!
# `Proofs.Text.Comments` — what taking the comments out of a text does

A comment ends at the end of its line, so a text may be taken apart at line breaks
(`withoutComments_append_newline`, `lines_induction`). Within a line, what stands in front of the
first marker stays as it is (`withoutComments_append`), and the line ends there.

## Contents
- `Unmarked`: no comment marker in a text, and what may be added to such a text.
- **Parts.** Unmarked parts and lines are read on their own.
- **Lines.** What is left of each line (`upToMarker_withoutComments`), and so of the text: it has no
  marker and as many lines as before.
-/

namespace GameContent
namespace Text

/-- The text has no comment marker. -/
def Unmarked (cs : List Char) : Prop := ¬['-', '-'] <:+: cs

/-- A marker is two dashes next to each other, wherever they stand. -/
theorem unmarked_cons_iff {c : Char} {cs : List Char} :
    Unmarked (c :: cs) ↔ (c ≠ '-' ∨ cs.head? ≠ some '-') ∧ Unmarked cs := by
  constructor
  · intro h
    refine ⟨?_, fun hmarker => h (hmarker.trans (List.suffix_cons c cs).isInfix)⟩
    by_contra hcon
    rw [not_or, not_not, not_not] at hcon
    obtain ⟨rfl, hhead⟩ := hcon
    obtain ⟨rest, rfl⟩ := List.head?_eq_some_iff.1 hhead
    exact h ⟨[], rest, rfl⟩
  · rintro ⟨hopen, h⟩ hmarker
    rcases List.infix_cons_iff.1 hmarker with hfront | hinfix
    · obtain ⟨rfl, rest, rfl⟩ := List.cons_prefix_cons.1 hfront
      simp at hopen
    · exact h hinfix

theorem unmarked_nil : Unmarked [] := by simp [Unmarked]

/-- A marker at the end needs a dash there and another one before it. -/
theorem Unmarked.concat {cs : List Char} {c : Char} (h : Unmarked cs)
    (hopen : cs.getLast? ≠ some '-' ∨ c ≠ '-') : Unmarked (cs ++ [c]) := by
  intro hmarker
  rcases List.infix_concat_iff.1 hmarker with hback | hinfix
  · obtain ⟨rest, hrest⟩ := hback
    obtain ⟨rfl, hc⟩ : rest ++ ['-'] = cs ∧ ['-'] = [c] :=
      List.append_inj' (by simpa using hrest) rfl
    simp at hopen
    exact hopen (List.singleton_inj.1 hc).symm
  · exact h hinfix

/-- A line break keeps two texts apart. -/
theorem Unmarked.append_newline {a b : List Char} (ha : Unmarked a) (hb : Unmarked b) :
    Unmarked (a ++ '\n' :: b) := by
  induction a with
  | nil => exact unmarked_cons_iff.2 ⟨Or.inl (by decide), hb⟩
  | cons c a ih =>
    obtain ⟨hopen, ha⟩ := unmarked_cons_iff.1 ha
    refine unmarked_cons_iff.2 ⟨hopen.imp id fun hhead => ?_, ih ha⟩
    cases a with
    | nil => simp
    | cons d a => simpa using hhead

/-- A text that has a marker has a first one. -/
theorem exists_first_marker {cs : List Char} (h : ¬Unmarked cs) :
    ∃ front back, cs = front ++ '-' :: '-' :: back ∧ Unmarked (front ++ ['-']) := by
  induction cs with
  | nil => exact absurd unmarked_nil h
  | cons c cs ih =>
    by_cases hopen : c ≠ '-' ∨ cs.head? ≠ some '-'
    · obtain ⟨front, back, rfl, hfront⟩ := ih fun hcs => h (unmarked_cons_iff.2 ⟨hopen, hcs⟩)
      refine ⟨c :: front, back, rfl, unmarked_cons_iff.2 ⟨hopen.imp id fun hhead => ?_, hfront⟩⟩
      cases front with
      | nil => simp at hhead
      | cons d front => simpa using hhead
    · rw [not_or, not_not, not_not] at hopen
      obtain ⟨rfl, hhead⟩ := hopen
      obtain ⟨back, rfl⟩ := List.head?_eq_some_iff.1 hhead
      exact ⟨[], back, rfl, unmarked_nil.concat (Or.inl nofun)⟩

/-! ## Parts -/

/-- What follows a character that does not open a comment is read on its own. -/
theorem withoutComments_cons {c : Char} {cs : List Char} (h : c ≠ '-' ∨ cs.head? ≠ some '-') :
    withoutComments (c :: cs) = c :: withoutComments cs := by
  rw [withoutComments]
  intro cs' hc hcs
  subst hc hcs
  simp at h

/-- **Unmarked parts.** A part that does not open a comment, not even with the next character, is
    read on its own. -/
theorem withoutComments_append {a b : List Char} (h : Unmarked (a ++ b.take 1)) :
    withoutComments (a ++ b) = a ++ withoutComments b := by
  induction a with
  | nil => rfl
  | cons c a ih =>
    have hnext : (a ++ b.take 1).head? = (a ++ b).head? := by
      cases a with
      | nil => cases b <;> rfl
      | cons d a => rfl
    rw [List.cons_append, unmarked_cons_iff, hnext] at h
    obtain ⟨hopen, ha⟩ := h
    rw [List.cons_append, withoutComments_cons hopen, ih ha, List.cons_append]

/-- So is an unmarked part that is followed by a character other than a dash. -/
theorem withoutComments_append_cons {a : List Char} (ha : Unmarked a) {c : Char} (hc : c ≠ '-')
    (b : List Char) : withoutComments (a ++ c :: b) = a ++ c :: withoutComments b := by
  have hpart : Unmarked (a ++ (c :: b).take 1) := ha.concat (Or.inr hc)
  rw [withoutComments_append hpart, withoutComments_cons (Or.inl hc)]

/-- A text without a marker has no comments. -/
theorem withoutComments_of_unmarked {cs : List Char} (h : Unmarked cs) :
    withoutComments cs = cs := by
  have hall := withoutComments_append (a := cs) (b := []) (by simpa using h)
  rw [List.append_nil] at hall
  exact hall.trans (List.append_nil cs)

theorem afterComment_cons_of_ne {c : Char} (h : c ≠ '\n') (cs : List Char) :
    afterComment (c :: cs) = afterComment cs := by
  rw [afterComment]
  exact h

/-- **Line by line.** The comments of a text are those of its lines. -/
theorem comments_append_newline (a b : List Char) :
    withoutComments (a ++ '\n' :: b) = withoutComments a ++ '\n' :: withoutComments b
      ∧ afterComment (a ++ '\n' :: b) = afterComment a ++ '\n' :: withoutComments b := by
  -- The induction peels two characters at once where a comment opens, so it is on the length.
  induction hn : a.length using Nat.strong_induction_on generalizing a with
  | _ n ih =>
    cases a with
    | nil => exact ⟨withoutComments_cons (Or.inl (by decide)), rfl⟩
    | cons c cs =>
      have hlt : cs.length < n := by
        rw [← hn]
        simp
      obtain ⟨ihw, iha⟩ := ih cs.length hlt cs rfl
      constructor
      · by_cases hopen : c ≠ '-' ∨ cs.head? ≠ some '-'
        · have hopen' : c ≠ '-' ∨ (cs ++ '\n' :: b).head? ≠ some '-' := by
            refine hopen.imp id fun hhead => ?_
            cases cs with
            | nil => simp
            | cons d ds => simpa using hhead
          rw [List.cons_append, withoutComments_cons hopen', withoutComments_cons hopen, ihw,
            List.cons_append]
        · rw [not_or, not_not, not_not] at hopen
          obtain ⟨rfl, hhead⟩ := hopen
          obtain ⟨ds, rfl⟩ := List.head?_eq_some_iff.1 hhead
          have hlt' : ds.length < n := by
            simp at hlt
            omega
          show afterComment (ds ++ '\n' :: b) = afterComment ds ++ '\n' :: withoutComments b
          exact (ih ds.length hlt' ds rfl).2
      · by_cases hc : c = '\n'
        · subst hc
          show '\n' :: withoutComments (cs ++ '\n' :: b) = _
          rw [ihw]
          rfl
        · rw [List.cons_append, afterComment_cons_of_ne hc, afterComment_cons_of_ne hc, iha]

theorem withoutComments_append_newline (a b : List Char) :
    withoutComments (a ++ '\n' :: b) = withoutComments a ++ '\n' :: withoutComments b :=
  (comments_append_newline a b).1

/-- A comment that reaches to the end of the text leaves nothing of it. -/
theorem afterComment_of_not_mem {cs : List Char} (h : '\n' ∉ cs) : afterComment cs = [] := by
  induction cs with
  | nil => rfl
  | cons c cs ih =>
    rw [List.mem_cons, not_or] at h
    rw [afterComment_cons_of_ne (fun he => h.1 he.symm), ih h.2]

theorem withoutComments_comment {cs : List Char} (h : '\n' ∉ cs) :
    withoutComments ('-' :: '-' :: cs) = [] :=
  afterComment_of_not_mem h

/-- A line ends at its first marker. -/
theorem withoutComments_append_marker {front back : List Char} (hfront : Unmarked (front ++ ['-']))
    (hback : '\n' ∉ back) : withoutComments (front ++ '-' :: '-' :: back) = front := by
  have hpart : Unmarked (front ++ ('-' :: '-' :: back).take 1) := hfront
  rw [withoutComments_append hpart, withoutComments_comment hback, List.append_nil]

/-! ## Lines -/

/-- To show something of a text, show it of its last line and put lines in front. -/
theorem lines_induction {P : List Char → Prop} (last : ∀ line, '\n' ∉ line → P line)
    (more : ∀ line rest, '\n' ∉ line → P rest → P (line ++ '\n' :: rest)) (cs : List Char) :
    P cs := by
  cases hcs : pieces '\n' cs with
  | nil => exact absurd hcs (pieces_ne_nil '\n' cs)
  | cons line lines =>
    obtain ⟨hbreaks, rfl⟩ := pieces_eq_cons_iff.1 hcs
    clear hcs
    induction lines generalizing line with
    | nil => simpa using last line (hbreaks line List.mem_cons_self)
    | cons next lines ih =>
      obtain ⟨hline, hnext⟩ := List.forall_mem_cons.1 hbreaks
      exact more line _ hline (ih next hnext)

/-- `kept` is the line up to its first comment marker, or the whole line if it has none. -/
def UpToMarker (line kept : List Char) : Prop :=
  (Unmarked line ∧ kept = line)
    ∨ ∃ back, line = kept ++ '-' :: '-' :: back ∧ Unmarked (kept ++ ['-'])

theorem upToMarker_of_line {line : List Char} (h : '\n' ∉ line) :
    UpToMarker line (withoutComments line) := by
  by_cases hline : Unmarked line
  · exact .inl ⟨hline, withoutComments_of_unmarked hline⟩
  · obtain ⟨front, back, rfl, hfront⟩ := exists_first_marker hline
    have hback : '\n' ∉ back := fun hm => h (by simp [hm])
    rw [withoutComments_append_marker hfront hback]
    exact .inr ⟨back, rfl, hfront⟩

theorem UpToMarker.begins {line kept : List Char} (h : UpToMarker line kept) : kept <+: line := by
  rcases h with ⟨-, rfl⟩ | ⟨back, rfl, -⟩
  · exact List.prefix_rfl
  · exact List.prefix_append _ _

theorem UpToMarker.unmarked {line kept : List Char} (h : UpToMarker line kept) :
    Unmarked kept := by
  rcases h with ⟨hline, rfl⟩ | ⟨back, -, hkept⟩
  · exact hline
  · exact fun hm => hkept (hm.trans (List.prefix_append _ _).isInfix)

/-- **What is left** of each line is what stands in front of its first marker. -/
theorem upToMarker_withoutComments (cs : List Char) :
    List.Forall₂ UpToMarker (pieces '\n' cs) (pieces '\n' (withoutComments cs)) := by
  have hkept : ∀ line, '\n' ∉ line → '\n' ∉ withoutComments line := by
    intro line hline hm
    exact hline ((upToMarker_of_line hline).begins.subset hm)
  apply lines_induction _ _ cs
  · intro line hline
    rw [pieces_of_not_mem hline, pieces_of_not_mem (hkept line hline)]
    exact List.Forall₂.cons (upToMarker_of_line hline) List.Forall₂.nil
  · intro line rest hline ih
    rw [withoutComments_append_newline, pieces_append_cons, pieces_append_cons,
      pieces_of_not_mem hline, pieces_of_not_mem (hkept line hline)]
    exact List.Forall₂.cons (upToMarker_of_line hline) ih

/-- No marker is left, and none comes about where lines or characters move together. -/
theorem unmarked_withoutComments (cs : List Char) : Unmarked (withoutComments cs) := by
  apply lines_induction _ _ cs
  · intro line hline
    exact (upToMarker_of_line hline).unmarked
  · intro line rest hline ih
    rw [withoutComments_append_newline]
    exact (upToMarker_of_line hline).unmarked.append_newline ih

/-- The line breaks are all kept. -/
theorem count_newline_withoutComments (cs : List Char) :
    (withoutComments cs).count '\n' = cs.count '\n' := by
  have hlength := (upToMarker_withoutComments cs).length_eq
  rw [length_pieces, length_pieces] at hlength
  omega

/-- A comment at the end of a line leaves nothing, if no dash stands in front of its marker. -/
theorem withoutComments_line_append_comment {line comment : List Char} (hline : '\n' ∉ line)
    (hdash : line.getLast? ≠ some '-') (hcomment : '\n' ∉ comment) :
    withoutComments (line ++ '-' :: '-' :: comment) = withoutComments line := by
  rcases upToMarker_of_line hline with ⟨hunmarked, hkept⟩ | ⟨back, he, hkept⟩
  · rw [withoutComments_append_marker (hunmarked.concat (Or.inl hdash)) hcomment, hkept]
  · -- The line has a comment already, and the new one goes on with it.
    have hback : '\n' ∉ back ++ '-' :: '-' :: comment := by
      have hm : '\n' ∉ back := fun hm => hline (by rw [he]; simp [hm])
      simp [hm, hcomment]
    conv_lhs => rw [he, List.append_assoc, List.cons_append, List.cons_append]
    exact withoutComments_append_marker hkept hback

end Text
end GameContent
