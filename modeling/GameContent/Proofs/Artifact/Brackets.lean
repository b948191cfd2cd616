import GameContent.Proofs.Artifact.Reading

/-!
# `Proofs.Artifact.Brackets` — the brackets of a text that can be read

An artifact is blanks and then blocks `[name]body`, and its only brackets are those around the names
(`WellBracketed`). A text that can be read need not be of this form: an opening bracket with nothing
but blanks behind it is passed over, and a name whose opening bracket is missing makes a block all
the same. The main result of the module is that nothing else is passed over: a text without these
two faults (`Solid`) is read only if it is of the form, and then as one bag for each of its blocks.

## Contents
- `BracketedBlock` and `WellBracketed` give the form; `Bracketing` ties a text to its bags.
- `Solid` excludes the two faults; `solid_iff` says it of the pieces of the text.
- `Solid.bracketing` and `WellBracketed.solid` compare the two for texts that can be read.
-/

namespace GameContent
open Text Block

/-! ## The form of an artifact -/

/-- A block as it is written. -/
structure BracketedBlock where
  /-- What stands between its brackets. -/
  name : List Char
  /-- What stands behind them. -/
  body : List Char

namespace BracketedBlock

/-- The characters of a block. -/
def chars (b : BracketedBlock) : List Char :=
  '[' :: (b.name ++ ']' :: b.body)

/-- Neither the name nor the body holds a bracket. -/
structure Plain (b : BracketedBlock) : Prop where
  /-- No opening bracket in the name. -/
  name_opening : '[' ∉ b.name
  /-- No closing bracket in the name. -/
  name_closing : ']' ∉ b.name
  /-- No opening bracket in the body. -/
  body_opening : '[' ∉ b.body
  /-- No closing bracket in the body. -/
  body_closing : ']' ∉ b.body

theorem Plain.count_opening {b : BracketedBlock} (h : b.Plain) : b.chars.count '[' = 1 := by
  have hname := List.count_eq_zero.2 h.name_opening
  have hbody := List.count_eq_zero.2 h.body_opening
  simp [chars, List.count_append, hname, hbody]

end BracketedBlock

/-- The text is made of blanks and then of the given blocks, and it has no brackets but theirs. -/
structure WellBracketed (cs : List Char) (blocks : List BracketedBlock) : Prop where
  /-- The brackets of the blocks are those around their names. -/
  plain : ∀ b ∈ blocks, b.Plain
  /-- Nothing else stands in the text, blanks in front of the first block apart. -/
  text : ∃ before, Blank before ∧ cs = before ++ blocks.flatMap BracketedBlock.chars

/-- A character that occurs once in every block occurs as often as there are blocks. -/
theorem count_flatMap_eq_length {α : Type} {c : Char} {text : α → List Char} {xs : List α}
    (h : ∀ x ∈ xs, (text x).count c = 1) : (xs.flatMap text).count c = xs.length := by
  induction xs with
  | nil => rfl
  | cons x xs ih =>
    rw [List.flatMap_cons, List.count_append, h x List.mem_cons_self,
      ih fun y hy => h y (List.mem_cons_of_mem _ hy), List.length_cons, Nat.add_comm]

namespace WellBracketed

variable {cs : List Char} {blocks : List BracketedBlock}

/-- There are as many opening brackets as blocks. -/
theorem count_opening (h : WellBracketed cs blocks) : cs.count '[' = blocks.length := by
  obtain ⟨before, hbefore, rfl⟩ := h.text
  have hnone : before.count '[' = 0 := List.count_eq_zero.2 (hbefore.not_mem (by decide))
  rw [List.count_append, hnone, Nat.zero_add]
  exact count_flatMap_eq_length fun b hb => (h.plain b hb).count_opening

/-- The pieces of the text are its blanks and then its blocks. -/
theorem exists_pieces (h : WellBracketed cs blocks) :
    ∃ before, Blank before
      ∧ pieces '[' cs = before :: blocks.map fun b => b.name ++ ']' :: b.body := by
  obtain ⟨before, hbefore, rfl⟩ := h.text
  refine ⟨before, hbefore, pieces_eq_cons_iff.2 ⟨?_, ?_⟩⟩
  · rw [List.forall_mem_cons, List.forall_mem_map]
    refine ⟨hbefore.not_mem (by decide), fun b hb => ?_⟩
    have hplain := h.plain b hb
    simp [hplain.name_opening, hplain.body_opening]
  · rw [List.flatMap_map]
    rfl

end WellBracketed

/-! ## The name of a block in its bag -/

/-- The name in the header of the block that a bag was read from: the first value under
    `typeKey`. -/
def Properties.headerName? (p : Properties) : Option Value :=
  (p.get? typeKey).bind fun v => v.toList.head?

/-- A further field does not change the name of the block, not even one with the key of the name. -/
theorem Properties.headerName?_append {p : Properties} {name : Value}
    (h : p.headerName? = some name) (key : String) (value : Value) :
    (p.append key value).headerName? = some name := by
  rw [headerName?, append, get?_upsert]
  by_cases hkey : typeKey = key
  · subst hkey
    obtain ⟨v, hv, hhead⟩ := Option.bind_eq_some_iff.1 h
    rw [if_pos rfl, Option.bind_some, hv]
    cases v with
    | list items =>
      obtain ⟨rest, rfl⟩ := List.head?_eq_some_iff.1 hhead
      rfl
    | _ => exact hhead
  · rw [if_neg hkey]
    exact h

theorem Block.headerName?_bag (name : List Char) (fields : List (String × Value)) :
    (bag name fields).headerName? = some (.str (String.ofList name)) := by
  have hstart : ((∅ : Properties).set typeKey (String.ofList name)).headerName?
      = some (.str (String.ofList name)) := by
    rw [Properties.headerName?, Properties.get?_set, if_pos rfl]
    rfl
  rw [bag]
  generalize (∅ : Properties).set typeKey (String.ofList name) = p at hstart
  induction fields generalizing p with
  | nil => exact hstart
  | cons f fields ih => exact ih _ (Properties.headerName?_append hstart f.1 f.2)

/-! ## Texts in which nothing is passed over -/

/-- Every block of the text begins with an opening bracket and holds something but blanks. -/
structure Solid (cs : List Char) : Prop where
  /-- Before a closing bracket stands an opening one. -/
  opened : ∀ a b, cs = a ++ ']' :: b → '[' ∈ a
  /-- Behind an opening bracket and blanks stands neither the end nor another opening bracket. -/
  filled : ∀ a blanks b, cs = a ++ '[' :: (blanks ++ b) → Blank blanks →
    b ≠ [] ∧ b.head? ≠ some '['

/-- What follows a piece of a text is nothing or begins with a separator. -/
theorem eq_nil_or_head?_flatMap (sep : Char) (ps : List (List Char)) :
    ps.flatMap (sep :: ·) = [] ∨ (ps.flatMap (sep :: ·)).head? = some sep := by
  cases ps with
  | nil => exact Or.inl rfl
  | cons p ps => exact Or.inr rfl

/-- **Solid texts by their pieces.** -/
theorem solid_iff {cs front : List Char} {later : List (List Char)}
    (h : pieces '[' cs = front :: later) :
    Solid cs ↔ ']' ∉ front ∧ ∀ piece ∈ later, ¬Blank piece := by
  obtain ⟨hopen, hcs⟩ := pieces_eq_cons_iff.1 h
  constructor
  · intro hsolid
    constructor
    · intro hclose
      obtain ⟨a, b, rfl⟩ := List.append_of_mem hclose
      have hin : '[' ∈ a := hsolid.opened a (b ++ later.flatMap ('[' :: ·)) (by rw [hcs]; simp)
      exact hopen _ List.mem_cons_self (List.mem_append_left _ hin)
    · intro piece hpiece hblank
      obtain ⟨before, after, rfl⟩ := List.append_of_mem hpiece
      have hfilled := hsolid.filled (front ++ before.flatMap ('[' :: ·)) piece
        (after.flatMap ('[' :: ·)) (by rw [hcs]; simp) hblank
      exact (eq_nil_or_head?_flatMap '[' after).elim hfilled.1 hfilled.2
  · rintro ⟨hclose, hfilled⟩
    constructor
    · rintro a b rfl
      by_contra hnone
      -- Without an opening bracket before it, the closing one belongs to the first piece.
      obtain ⟨p, ps, hb⟩ := List.exists_cons_of_ne_nil (pieces_ne_nil '[' b)
      have hpieces := pieces_append_of_not_mem (a := a ++ [']']) (by simp [hnone]) hb
      rw [List.append_assoc, List.singleton_append, h] at hpieces
      rw [(List.cons.inj hpieces).1] at hclose
      exact hclose (by simp)
    · rintro a blanks b rfl hblanks
      obtain ⟨q, qs, ha⟩ := List.exists_cons_of_ne_nil (pieces_ne_nil '[' a)
      obtain ⟨p, ps, hb⟩ := List.exists_cons_of_ne_nil (pieces_ne_nil '[' b)
      rw [pieces_append_cons, pieces_append_of_not_mem (hblanks.not_mem (by decide)) hb, ha] at h
      have hpiece : ¬Blank (blanks ++ p) := by
        refine hfilled _ ?_
        rw [← (List.cons.inj h).2]
        exact List.mem_append_right _ List.mem_cons_self
      have hp : p ≠ [] := by
        rintro rfl
        exact hpiece (blank_append.2 ⟨hblanks, blank_nil⟩)
      constructor
      · rintro rfl
        exact hp (List.cons.inj hb).1.symm
      · intro hhead
        obtain ⟨rest, rfl⟩ := List.head?_eq_some_iff.1 hhead
        rw [pieces, if_pos rfl] at hb
        exact hp (List.cons.inj hb).1.symm

/-- A text of blanks and blocks is solid. -/
theorem WellBracketed.solid {cs : List Char} {blocks : List BracketedBlock}
    (h : WellBracketed cs blocks) : Solid cs := by
  obtain ⟨before, hbefore, hpieces⟩ := h.exists_pieces
  refine (solid_iff hpieces).2 ⟨hbefore.not_mem (by decide), ?_⟩
  rw [List.forall_mem_map]
  intro b _ hblank
  exact hblank.not_mem (c := ']') (by decide) (by simp)

/-! ## Texts that can be read -/

/-- Every bracket of the text is one of the two around the name of a block, and the bags carry the
    names of the blocks, in order. -/
structure Bracketing (cs : List Char) (ps : List Properties) : Prop where
  /-- There are as many opening brackets as bags. -/
  opening : cs.count '[' = ps.length
  /-- There are as many closing brackets as bags. -/
  closing : cs.count ']' = ps.length
  /-- The text is blanks and blocks, and each bag carries the name of its block. -/
  blocks : ∃ blocks, WellBracketed cs blocks
    ∧ ps.map Properties.headerName?
      = blocks.map fun b => some (.str (String.ofList (trim b.name)))

/-- Pieces that are read as bags are the bodies of blocks with the names of the bags. -/
theorem exists_blocks_of_forall₂ {later : List (List Char)} {ps : List Properties}
    (h : List.Forall₂ ReadsAs later ps) (hopen : ∀ piece ∈ later, '[' ∉ piece) :
    ∃ blocks : List BracketedBlock, (∀ b ∈ blocks, b.Plain)
      ∧ later = blocks.map (fun b => b.name ++ ']' :: b.body)
      ∧ ps.map Properties.headerName?
        = blocks.map fun b => some (.str (String.ofList (trim b.name))) := by
  induction h with
  | nil => exact ⟨[], by simp, rfl, rfl⟩
  | cons hp _ ih =>
    obtain ⟨name, body, fields, rfl, hname, hbody, -, rfl⟩ := hp
    obtain ⟨hblock, hrest⟩ := List.forall_mem_cons.1 hopen
    obtain ⟨blocks, hplain, rfl, hnames⟩ := ih hrest
    have hopening : '[' ∉ name ∧ '[' ∉ body := by simpa using hblock
    refine ⟨⟨name, body⟩ :: blocks, List.forall_mem_cons.2 ⟨?_, hplain⟩, rfl, ?_⟩
    · exact ⟨hopening.1, hname, hopening.2, hbody⟩
    · rw [List.map_cons, List.map_cons, hnames, headerName?_bag]

/-- Each piece that is read has one closing bracket, and the blank ones have none. -/
theorem count_closing_of_forall₂ {blocks : List (List Char)} {ps : List Properties}
    (h : List.Forall₂ ReadsAs (written blocks) ps) :
    (blocks.flatMap ('[' :: ·)).count ']' = ps.length := by
  induction blocks generalizing ps with
  | nil =>
    rw [written_nil, List.forall₂_nil_left_iff] at h
    rw [h]
    rfl
  | cons block blocks ih =>
    rw [List.flatMap_cons, List.count_append, List.count_cons_of_ne (by decide)]
    by_cases hblank : Blank block
    · rw [written_cons_of_blank hblank] at h
      rw [List.count_eq_zero.2 (hblank.not_mem (by decide)), ih h, Nat.zero_add]
    · rw [written_cons_of_not_blank hblank, List.forall₂_cons_left_iff] at h
      obtain ⟨p, qs, ⟨name, body, fields, rfl, hname, hbody, -, -⟩, hqs, rfl⟩ := h
      have hone : (name ++ ']' :: body).count ']' = 1 := by
        simp [List.count_append, List.count_eq_zero.2 hname, List.count_eq_zero.2 hbody]
      rw [hone, ih hqs, List.length_cons, Nat.add_comm]

/-- A text that can be read has as many closing brackets as bags. -/
theorem count_closing_of_parse {text : String} {ps : List Properties} (h : parse text = .ok ps) :
    (withoutComments text.toList).count ']' = ps.length := by
  obtain ⟨front, later, hpieces⟩ :=
    List.exists_cons_of_ne_nil (pieces_ne_nil '[' (withoutComments text.toList))
  rw [parse_eq, readAll_eq_ok_iff, hpieces] at h
  have hcount := count_closing_of_forall₂ h
  rw [eq_append_flatMap_of_pieces hpieces]
  simpa using hcount

/-- **Solid texts** are read only if they are blanks and blocks. -/
theorem Solid.bracketing {text : String} {ps : List Properties} (h : parse text = .ok ps)
    (hsolid : Solid (withoutComments text.toList)) :
    Bracketing (withoutComments text.toList) ps := by
  obtain ⟨front, later, hpieces⟩ :=
    List.exists_cons_of_ne_nil (pieces_ne_nil '[' (withoutComments text.toList))
  obtain ⟨hclose, hfilled⟩ := (solid_iff hpieces).1 hsolid
  obtain ⟨hopen, htext⟩ := pieces_eq_cons_iff.1 hpieces
  have hread := h
  rw [parse_eq, readAll_eq_ok_iff, hpieces] at hread
  have hfront : Blank front := by
    by_contra hblank
    rw [written_cons_of_not_blank hblank, List.forall₂_cons_left_iff] at hread
    obtain ⟨p, qs, ⟨name, body, fields, rfl, -⟩, -⟩ := hread
    exact hclose (by simp)
  rw [written_cons_of_blank hfront, written_eq_self hfilled] at hread
  obtain ⟨blocks, hplain, rfl, hnames⟩ :=
    exists_blocks_of_forall₂ hread fun b hb => hopen b (List.mem_cons_of_mem _ hb)
  have hwell : WellBracketed (withoutComments text.toList) blocks := by
    refine ⟨hplain, front, hfront, ?_⟩
    rw [htext, List.flatMap_map]
    rfl
  have hlength : ps.length = blocks.length := by simpa using congrArg List.length hnames
  exact ⟨hwell.count_opening.trans hlength.symm, count_closing_of_parse h, blocks, hwell, hnames⟩

/-- **What is reported and what is passed over.** If a text can be read there is a bag for each
    closing bracket, and all brackets are those around the names of the bags exactly if the text is
    solid. So a solid text that is not made of blanks and blocks is always reported. -/
theorem bracketing_iff_solid (text : String) :
    (∀ ps, parse text = .ok ps →
      (withoutComments text.toList).count ']' = ps.length
        ∧ (Bracketing (withoutComments text.toList) ps ↔ Solid (withoutComments text.toList)))
      ∧ (Solid (withoutComments text.toList) →
        (¬∃ blocks, WellBracketed (withoutComments text.toList) blocks) →
          ∃ e, parse text = .error e) := by
  constructor
  · intro ps h
    refine ⟨count_closing_of_parse h, fun hbracketing => ?_, fun hsolid => hsolid.bracketing h⟩
    obtain ⟨blocks, hwell, -⟩ := hbracketing.blocks
    exact hwell.solid
  · intro hsolid hnone
    cases h : parse text with
    | error e => exact ⟨e, rfl⟩
    | ok ps =>
      obtain ⟨blocks, hwell, -⟩ := (hsolid.bracketing h).blocks
      exact absurd ⟨blocks, hwell⟩ hnone

/-- Two blocks behind a comment with brackets, and a body that holds the key of the name. -/
def twoBeds : String := " -- [old]\n[Bed] row=1; __type__=Row;\n [ Plot ]"

theorem bracketing_iff_solid_twoBeds :
    Solid (withoutComments twoBeds.toList)
      ∧ ∃ ps, parse twoBeds = .ok ps ∧ ps.length = 2
        ∧ Bracketing (withoutComments twoBeds.toList) ps := by
  have hpieces : pieces '[' (withoutComments twoBeds.toList)
      = [" \n".toList, "Bed] row=1; __type__=Row;\n ".toList, " Plot ]".toList] := by
    decide +kernel
  have hsolid : Solid (withoutComments twoBeds.toList) := by
    refine (solid_iff hpieces).2 ⟨by decide +kernel, ?_⟩
    simp only [← trim_eq_nil_iff]
    decide +kernel
  have hok : (parse twoBeds).isOk = true := by decide +kernel
  obtain ⟨ps, hps⟩ := exists_eq_ok_of_isOk hok
  obtain ⟨hcount, hiff⟩ := (bracketing_iff_solid twoBeds).1 ps hps
  have htwo : (withoutComments twoBeds.toList).count ']' = 2 := by decide +kernel
  exact ⟨hsolid, ps, hps, hcount.symm.trans htwo, hiff.2 hsolid⟩

/-- Where the brackets do not pair up, they cannot be those around the names. -/
theorem exists_not_bracketing {text : String} (hok : (parse text).isOk = true)
    (hcount : (withoutComments text.toList).count '[' ≠ (withoutComments text.toList).count ']') :
    ∃ ps, parse text = .ok ps ∧ ¬Bracketing (withoutComments text.toList) ps := by
  obtain ⟨ps, hps⟩ := exists_eq_ok_of_isOk hok
  refine ⟨ps, hps, fun h => hcount ?_⟩
  rw [h.opening, h.closing]

/-- An opening bracket at the end or in front of another one is passed over, and a name without an
    opening bracket makes a block. -/
theorem parse_passes_over_brackets :
    (∃ ps, parse "[T] k=1;\n[" = .ok ps
        ∧ ¬Bracketing (withoutComments "[T] k=1;\n[".toList) ps)
      ∧ (∃ ps, parse "[[T] k=1;" = .ok ps
        ∧ ¬Bracketing (withoutComments "[[T] k=1;".toList) ps)
      ∧ ∃ ps, parse "T] k=1;" = .ok ps ∧ ¬Bracketing (withoutComments "T] k=1;".toList) ps :=
  ⟨exists_not_bracketing (by decide +kernel) (by decide +kernel),
    exists_not_bracketing (by decide +kernel) (by decide +kernel),
    exists_not_bracketing (by decide +kernel) (by decide +kernel)⟩

end GameContent
