import GameContent.Text.Pieces
import Mathlib.Data.List.Infix

/-!
# `Proofs.Text.Replacing` — replacing the occurrences of a fragment

Which occurrences are replaced is not obvious where a fragment overlaps itself. `Replaced` says it
without a scan: the text is cut behind the first occurrence, what stands in front of it stays, and
the rest is a text of its own. Scanning the text does just that (`replaced_iff`), and it leaves a
text as it is exactly if there is nothing to replace or nothing would change (`replaced_self_iff`).
-/

namespace GameContent
namespace Text

variable {fragment replacement : List Char}

/-- A text and the same text with the occurrences of a fragment replaced, which are found from left
    to right and do not overlap. -/
inductive Replaced (fragment replacement : List Char) : List Char → List Char → Prop where
  /-- A text without occurrences stays as it is. -/
  | none {cs : List Char} (h : ¬fragment <:+: cs) : Replaced fragment replacement cs cs
  /-- The first occurrence is replaced, and then those in the rest. It is the first one if there is
      none that ends before it does. -/
  | found {front rest out : List Char} (h : ¬fragment <:+: (front ++ fragment).dropLast)
      (hrest : Replaced fragment replacement rest out) :
      Replaced fragment replacement (front ++ fragment ++ rest) (front ++ replacement ++ out)

/-! ## Scanning -/

theorem replaceFrom_eq_drop (skip : Nat) (cs : List Char) :
    replaceFrom fragment replacement skip cs
      = replaceFrom fragment replacement 0 (cs.drop skip) := by
  induction skip generalizing cs with
  | zero => rfl
  | succ skip ih =>
    cases cs with
    | nil => rfl
    | cons c cs => rw [replaceFrom, ih, List.drop_succ_cons]

theorem replaceFrom_cons_of_not_isPrefix {c : Char} {cs : List Char} (h : ¬fragment <+: c :: cs) :
    replaceFrom fragment replacement 0 (c :: cs) = c :: replaceFrom fragment replacement 0 cs := by
  rw [replaceFrom, if_neg (by rwa [List.isPrefixOf_iff_prefix])]

theorem replaceFrom_append (hne : fragment ≠ []) (rest : List Char) :
    replaceFrom fragment replacement 0 (fragment ++ rest)
      = replacement ++ replaceFrom fragment replacement 0 rest := by
  cases fragment with
  | nil => exact absurd rfl hne
  | cons f fs =>
    rw [List.cons_append, replaceFrom, if_pos (by simp), replaceFrom_eq_drop, List.length_cons,
      Nat.add_sub_cancel, List.drop_left]

theorem replaceFrom_of_not_isInfix {cs : List Char} (h : ¬fragment <:+: cs) :
    replaceFrom fragment replacement 0 cs = cs := by
  induction cs with
  | nil => rfl
  | cons c cs ih =>
    rw [List.infix_cons_iff, not_or] at h
    rw [replaceFrom_cons_of_not_isPrefix h.1, ih h.2]

/-- What begins in front of an occurrence ends before it does. -/
theorem prefix_dropLast {c : Char} {front rest : List Char}
    (h : fragment <+: c :: (front ++ fragment ++ rest)) :
    fragment <+: c :: (front ++ fragment).dropLast := by
  have hfront : c :: (front ++ fragment).dropLast <+: c :: (front ++ fragment ++ rest) :=
    (List.prefix_cons_inj c).2 ((List.dropLast_prefix _).trans (List.prefix_append _ _))
  refine List.prefix_of_prefix_length_le h hfront ?_
  rw [List.length_cons, List.length_dropLast, List.length_append]
  omega

/-- No occurrence in front of the first one begins with a character more. -/
theorem infix_dropLast_cons_iff (hne : fragment ≠ []) {c : Char} {front : List Char} :
    fragment <:+: (c :: front ++ fragment).dropLast
      ↔ fragment <+: c :: (front ++ fragment).dropLast
        ∨ fragment <:+: (front ++ fragment).dropLast := by
  rw [List.cons_append, List.dropLast_cons_of_ne_nil (List.append_ne_nil_of_right_ne_nil _ hne),
    List.infix_cons_iff]

/-- What stands in front of the first occurrence stays. -/
theorem replaceFrom_front (hne : fragment ≠ []) {front : List Char}
    (h : ¬fragment <:+: (front ++ fragment).dropLast) (rest : List Char) :
    replaceFrom fragment replacement 0 (front ++ fragment ++ rest)
      = front ++ replacement ++ replaceFrom fragment replacement 0 rest := by
  induction front with
  | nil => exact replaceFrom_append hne rest
  | cons c front ih =>
    rw [infix_dropLast_cons_iff hne, not_or] at h
    rw [List.cons_append, List.cons_append,
      replaceFrom_cons_of_not_isPrefix fun hprefix => h.1 (prefix_dropLast hprefix), ih h.2,
      List.cons_append, List.cons_append]

/-- A text that holds the fragment has a first occurrence. -/
theorem exists_first (hne : fragment ≠ []) {cs : List Char} (h : fragment <:+: cs) :
    ∃ front rest, cs = front ++ fragment ++ rest
      ∧ ¬fragment <:+: (front ++ fragment).dropLast := by
  induction cs with
  | nil => exact absurd (List.infix_nil.1 h) hne
  | cons c cs ih =>
    by_cases hprefix : fragment <+: c :: cs
    · obtain ⟨rest, hrest⟩ := hprefix
      refine ⟨[], rest, hrest.symm, fun hinfix => ?_⟩
      have hlength := hinfix.length_le
      rw [List.nil_append, List.length_dropLast] at hlength
      have hpos := List.length_pos_iff.2 hne
      omega
    · obtain ⟨front, rest, rfl, hfirst⟩ := ih ((List.infix_cons_iff.1 h).resolve_left hprefix)
      refine ⟨c :: front, rest, rfl, fun hinfix => ?_⟩
      rcases (infix_dropLast_cons_iff hne).1 hinfix with hbegin | hlater
      · refine hprefix (hbegin.trans ((List.prefix_cons_inj c).2 ?_))
        exact (List.dropLast_prefix _).trans (List.prefix_append _ _)
      · exact hfirst hlater

theorem replaced_replaceFrom (hne : fragment ≠ []) (cs : List Char) :
    Replaced fragment replacement cs (replaceFrom fragment replacement 0 cs) := by
  induction hn : cs.length using Nat.strong_induction_on generalizing cs with
  | _ n ih =>
    by_cases h : fragment <:+: cs
    · obtain ⟨front, rest, rfl, hfirst⟩ := exists_first hne h
      have hlt : rest.length < n := by
        have hpos := List.length_pos_iff.2 hne
        rw [← hn, List.length_append, List.length_append]
        omega
      rw [replaceFrom_front hne hfirst]
      exact .found hfirst (ih _ hlt rest rfl)
    · rw [replaceFrom_of_not_isInfix h]
      exact .none h

/-- **Scanning a text replaces the occurrences of the fragment**, those that do not overlap an
    earlier one. -/
theorem replaced_iff (hne : fragment ≠ []) {cs out : List Char} :
    Replaced fragment replacement cs out ↔ out = replaceFrom fragment replacement 0 cs := by
  constructor
  · intro h
    induction h with
    | none h => rw [replaceFrom_of_not_isInfix h]
    | found h hrest ih => rw [replaceFrom_front hne h, ih]
  · rintro rfl
    exact replaced_replaceFrom hne cs

/-! ## What stays -/

/-- With a replacement that is no shorter the text gets no shorter, and with one that is no longer
    it gets no longer. -/
theorem Replaced.length_le {cs out : List Char} (h : Replaced fragment replacement cs out) :
    (fragment.length ≤ replacement.length → cs.length ≤ out.length)
      ∧ (replacement.length ≤ fragment.length → out.length ≤ cs.length) := by
  induction h with
  | none h => exact ⟨fun _ => le_rfl, fun _ => le_rfl⟩
  | found h hrest ih =>
    simp only [List.length_append]
    exact ⟨fun hle => by have := ih.1 hle; omega, fun hle => by have := ih.2 hle; omega⟩

/-- A fragment that is replaced by itself leaves the text as it is. -/
theorem Replaced.eq_of_self {cs out : List Char} (h : Replaced fragment fragment cs out) :
    out = cs := by
  induction h with
  | none h => rfl
  | found h hrest ih => rw [ih]

/-- A text that holds the fragment changes, unless the fragment is replaced by itself: all
    replacements change the length in the same direction. -/
theorem Replaced.not_infix_or_eq {cs out : List Char} (h : Replaced fragment replacement cs out)
    (hsame : cs = out) : ¬fragment <:+: cs ∨ replacement = fragment := by
  cases h with
  | none h => exact .inl h
  | found h hrest =>
    obtain ⟨hlonger, hshorter⟩ := hrest.length_le
    have hlength := congrArg List.length hsame
    simp only [List.length_append] at hlength
    have hequal : fragment.length = replacement.length := by
      rcases Nat.le_total fragment.length replacement.length with hle | hle
      · have := hlonger hle
        omega
      · have := hshorter hle
        omega
    rw [List.append_assoc, List.append_assoc] at hsame
    exact .inr (List.append_inj (List.append_cancel_left hsame) hequal).1.symm

/-- **A text stays as it is** exactly if it does not hold the fragment or the fragment is replaced
    by itself. -/
theorem replaced_self_iff (hne : fragment ≠ []) {cs : List Char} :
    Replaced fragment replacement cs cs ↔ ¬fragment <:+: cs ∨ replacement = fragment := by
  constructor
  · exact fun h => h.not_infix_or_eq rfl
  · rintro (h | rfl)
    · exact .none h
    · have hcs : Replaced replacement replacement cs _ := replaced_replaceFrom hne cs
      rwa [hcs.eq_of_self] at hcs

/-- The text gets its characters from the replacement and from what it was. -/
theorem mem_of_mem_replaceFrom {c : Char} {skip : Nat} {cs : List Char}
    (h : c ∈ replaceFrom fragment replacement skip cs) : c ∈ replacement ∨ c ∈ cs := by
  induction cs generalizing skip with
  | nil =>
    cases skip <;> exact absurd h List.not_mem_nil
  | cons d cs ih =>
    cases skip with
    | succ skip => exact (ih h).imp_right (List.mem_cons_of_mem d)
    | zero =>
      rw [replaceFrom] at h
      split at h
      · rcases List.mem_append.1 h with hm | hm
        · exact .inl hm
        · exact (ih hm).imp_right (List.mem_cons_of_mem d)
      · rcases List.mem_cons.1 h with rfl | hm
        · exact .inr List.mem_cons_self
        · exact (ih hm).imp_right (List.mem_cons_of_mem d)

end Text
end GameContent
