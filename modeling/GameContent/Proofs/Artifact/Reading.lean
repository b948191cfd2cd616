import GameContent.Artifact.Block
import GameContent.Proofs.Success
import GameContent.Proofs.Text.Comments
import GameContent.Proofs.Text.Cutting
import Mathlib.Data.List.Forall2

/-!
# `Proofs.Artifact.Reading` — how the blocks of an artifact are read one after the other

Blanks at the ends of a block do not show in what is read from it (`read_trim`), so the text as a
whole need not be trimmed (`parse_eq`). A sequence of blocks is read block by block
(`readAll_eq_ok_iff`) and part by part (`readAll_append`), and the number from which the blocks are
counted shows only in errors (`readAll_later`).
-/

namespace GameContent

/-- The same error with the block counted from `k` instead of from zero. -/
def ParseError.later (k : Nat) : ParseError → ParseError
  | .missingBracket block text => .missingBracket (block + k) text
  | .strayBracket block text => .strayBracket (block + k) text
  | .missingEquals record field => .missingEquals record field

namespace Block
open Text

/-- The fields of a body need not be trimmed as a whole. -/
theorem fieldTexts_eq (body : List Char) :
    fieldTexts body = ((pieces ';' body).map trim).filter (!·.isEmpty) := by
  rw [fieldTexts, map_trim_pieces_trim (by decide)]

theorem fieldTexts_append_blank {body blanks : List Char} (h : Blank blanks) :
    fieldTexts (body ++ blanks) = fieldTexts body := by
  rw [fieldTexts_eq, map_trim_pieces_append_blank (by decide) h, ← fieldTexts_eq]

/-! ## One block -/

/-- A block of the form `name]body` is read as its name and its body. -/
theorem read_append_cons {name body : List Char} (hname : ']' ∉ name) (hbody : ']' ∉ body)
    (n : Nat) : read n (name ++ ']' :: body)
      = (readFields (trim name) (fieldTexts body)).map (bag (trim name)) := by
  have hheader : readHeader n (name ++ ']' :: body) = .ok (trim name, body) := by
    rw [readHeader, cut_append_cons hname]
    exact if_neg hbody
  rw [read, hheader]
  cases hfields : readFields (trim name) (fieldTexts body) with
  | error e => simp [bind, Except.bind, Except.map, hfields]
  | ok fields => simp [bind, Except.bind, Except.map, hfields, pure, Except.pure]

theorem read_of_cut_eq_none {block : List Char} (h : ']' ∉ block) (n : Nat) :
    read n block = .error (.missingBracket n (String.ofList (trim block))) := by
  rw [read, readHeader, cut_eq_none_iff.2 h]
  rfl

theorem read_of_mem_body {name body : List Char} (hname : ']' ∉ name) (hbody : ']' ∈ body)
    (n : Nat) : read n (name ++ ']' :: body)
      = .error (.strayBracket n (String.ofList (trim (name ++ ']' :: body)))) := by
  rw [read, readHeader, cut_append_cons hname]
  simp only [if_pos hbody]
  rfl

/-- **Blanks around a block** do not show in what is read from it. -/
theorem read_trim (n : Nat) (block : List Char) : read n (trim block) = read n block := by
  obtain ⟨before, after, hb, ha, he⟩ := exists_eq_trim block
  have hnb : ']' ∉ before := hb.not_mem (by decide)
  have hna : ']' ∉ after := ha.not_mem (by decide)
  cases hcut : cut ']' (trim block) with
  | none =>
    have ht : ']' ∉ trim block := cut_eq_none_iff.1 hcut
    have hblock : ']' ∉ block := by
      rw [he]
      simp [hnb, hna, ht]
    rw [read_of_cut_eq_none ht, read_of_cut_eq_none hblock, trim_trim]
  | some nb =>
    obtain ⟨name, body⟩ := nb
    obtain ⟨hname, ht⟩ := cut_eq_some_iff.1 hcut
    have hname' : ']' ∉ before ++ name := by simp [hnb, hname]
    have hsplit : block = (before ++ name) ++ ']' :: (body ++ after) := by
      rw [he, ht]
      simp
    by_cases hbody : ']' ∈ body
    · have hbody' : ']' ∈ body ++ after := List.mem_append_left _ hbody
      rw [ht, read_of_mem_body hname hbody, ← ht, trim_trim]
      conv_rhs => rw [hsplit, read_of_mem_body hname' hbody', ← hsplit]
    · have hbody' : ']' ∉ body ++ after := by simp [hbody, hna]
      rw [ht, read_append_cons hname hbody]
      conv_rhs => rw [hsplit, read_append_cons hname' hbody']
      rw [trim_blank_append hb, fieldTexts_append_blank ha]

/-- The first field without `=` is the only thing that can be wrong with the fields. -/
theorem eq_missingEquals_of_readFields {name : List Char} {fs : List (List Char)} {e : ParseError}
    (h : readFields name fs = .error e) :
    ∃ field ∈ fs, e = .missingEquals (String.ofList name) (String.ofList field) := by
  induction fs with
  | nil => exact absurd h (by simp [readFields])
  | cons f fs ih =>
    cases hcut : cut '=' f with
    | none =>
      refine ⟨f, List.mem_cons_self, ?_⟩
      simpa [readFields, readField, hcut, bind, Except.bind] using h.symm
    | some kv =>
      cases hrest : readFields name fs with
      | error e' =>
        have he : e' = e := by
          simpa [readFields, readField, hcut, hrest, bind, Except.bind] using h
        obtain ⟨field, hm, hfield⟩ := ih (hrest.trans (congrArg _ he))
        exact ⟨field, List.mem_cons_of_mem _ hm, hfield⟩
      | ok entries =>
        simp [readFields, readField, hcut, hrest, bind, Except.bind, pure, Except.pure] at h

/-- The block has the form `name]body`, its fields can be read, and this is the bag of its name and
    its fields. -/
def ReadsAs (block : List Char) (p : Properties) : Prop :=
  ∃ name body fields, block = name ++ ']' :: body ∧ ']' ∉ name ∧ ']' ∉ body
    ∧ readFields (trim name) (fieldTexts body) = .ok fields ∧ p = bag (trim name) fields

/-- **One block.** What a block is read as, whatever its number. -/
theorem read_eq_ok_iff {n : Nat} {block : List Char} {p : Properties} :
    read n block = .ok p ↔ ReadsAs block p := by
  constructor
  · intro h
    cases hcut : cut ']' block with
    | none =>
      rw [read_of_cut_eq_none (cut_eq_none_iff.1 hcut)] at h
      exact absurd h (by simp)
    | some nb =>
      obtain ⟨name, body⟩ := nb
      obtain ⟨hname, rfl⟩ := cut_eq_some_iff.1 hcut
      by_cases hbody : ']' ∈ body
      · rw [read_of_mem_body hname hbody] at h
        exact absurd h (by simp)
      · rw [read_append_cons hname hbody] at h
        obtain ⟨fields, hfields, rfl⟩ := map_eq_ok_iff.1 h
        exact ⟨name, body, fields, rfl, hname, hbody, hfields, rfl⟩
  · rintro ⟨name, body, fields, rfl, hname, hbody, hfields, rfl⟩
    rw [read_append_cons hname hbody]
    exact map_eq_ok_iff.2 ⟨fields, hfields, rfl⟩

/-- Fields that can be read one by one can be read together. -/
theorem readFields_map {α : Type} {name : List Char} (text : α → List Char)
    (entry : α → String × Value) {xs : List α}
    (h : ∀ x ∈ xs, readField name (text x) = .ok (entry x)) :
    readFields name (xs.map text) = .ok (xs.map entry) := by
  induction xs with
  | nil => rfl
  | cons x xs ih =>
    rw [List.map_cons, readFields, h x List.mem_cons_self,
      ih fun y hy => h y (List.mem_cons_of_mem _ hy)]
    rfl

/-- The number of a block shows only in the errors that report it. -/
theorem read_later (n k : Nat) (block : List Char) :
    read (n + k) block = (read n block).mapError (ParseError.later k) := by
  cases hcut : cut ']' block with
  | none =>
    have h := cut_eq_none_iff.1 hcut
    rw [read_of_cut_eq_none h, read_of_cut_eq_none h]
    rfl
  | some nb =>
    obtain ⟨name, body⟩ := nb
    obtain ⟨hname, rfl⟩ := cut_eq_some_iff.1 hcut
    by_cases hbody : ']' ∈ body
    · rw [read_of_mem_body hname hbody, read_of_mem_body hname hbody]
      rfl
    · rw [read_append_cons hname hbody, read_append_cons hname hbody]
      cases hfields : readFields (trim name) (fieldTexts body) with
      | error e =>
        obtain ⟨field, -, rfl⟩ := eq_missingEquals_of_readFields hfields
        rfl
      | ok fields => rfl

/-! ## Several blocks -/

theorem readAll_cons_blank {block : List Char} (h : Blank block) (n : Nat)
    (blocks : List (List Char)) : readAll n (block :: blocks) = readAll (n + 1) blocks := by
  rw [readAll, trim_eq_nil_iff.2 h]
  rfl

theorem readAll_cons_of_not_blank {block : List Char} (h : ¬Blank block) (n : Nat)
    (blocks : List (List Char)) :
    readAll n (block :: blocks)
      = (read n block).bind fun p => (readAll (n + 1) blocks).map (p :: ·) := by
  have hne : (trim block).isEmpty = false := by
    rw [List.isEmpty_eq_false_iff, ne_eq, trim_eq_nil_iff]
    exact h
  rw [readAll, hne]
  cases hp : read n block with
  | error e => simp [bind, Except.bind]
  | ok p =>
    cases hps : readAll (n + 1) blocks with
    | error e => simp [bind, Except.bind, Except.map]
    | ok ps => simp [bind, Except.bind, Except.map, pure, Except.pure]

/-- The blocks that are not blank. -/
def written (blocks : List (List Char)) : List (List Char) :=
  blocks.filter fun b => !(trim b).isEmpty

@[simp] theorem written_nil : written [] = [] := rfl

theorem written_cons_of_blank {block : List Char} (h : Blank block) (blocks : List (List Char)) :
    written (block :: blocks) = written blocks :=
  List.filter_cons_of_neg (by simp [trim_eq_nil_iff.2 h])

theorem written_cons_of_not_blank {block : List Char} (h : ¬Blank block)
    (blocks : List (List Char)) : written (block :: blocks) = block :: written blocks :=
  List.filter_cons_of_pos (by simpa [trim_eq_nil_iff] using h)

theorem written_eq_self {blocks : List (List Char)} (h : ∀ block ∈ blocks, ¬Blank block) :
    written blocks = blocks :=
  List.filter_eq_self.2 fun b hb => by simpa [trim_eq_nil_iff] using h b hb

/-- **Several blocks** are read as the bags of those that are not blank. -/
theorem readAll_eq_ok_iff {n : Nat} {blocks : List (List Char)} {ps : List Properties} :
    readAll n blocks = .ok ps
      ↔ List.Forall₂ ReadsAs (written blocks) ps := by
  induction blocks generalizing n ps with
  | nil =>
    rw [written_nil, List.forall₂_nil_left_iff, readAll]
    exact pure_eq_ok_iff
  | cons block blocks ih =>
    by_cases hblank : Blank block
    · rw [readAll_cons_blank hblank, written_cons_of_blank hblank, ih]
    · rw [readAll_cons_of_not_blank hblank, written_cons_of_not_blank hblank,
        List.forall₂_cons_left_iff]
      refine bind_eq_ok_iff.trans (exists_congr fun p => ?_)
      rw [map_eq_ok_iff, read_eq_ok_iff]
      constructor
      · rintro ⟨hp, qs, hqs, rfl⟩
        exact ⟨qs, hp, ih.1 hqs, rfl⟩
      · rintro ⟨qs, hp, hqs, rfl⟩
        exact ⟨hp, qs, ih.2 hqs, rfl⟩

/-- Blanks around the blocks do not show in what is read from them. -/
theorem readAll_map_trim (n : Nat) (blocks : List (List Char)) :
    readAll n (blocks.map trim) = readAll n blocks := by
  induction blocks generalizing n with
  | nil => rfl
  | cons block blocks ih =>
    rw [List.map_cons, readAll, readAll, trim_trim, read_trim, ih]

theorem readAll_later (n k : Nat) (blocks : List (List Char)) :
    readAll (n + k) blocks = (readAll n blocks).mapError (ParseError.later k) := by
  induction blocks generalizing n with
  | nil => rfl
  | cons block blocks ih =>
    by_cases hb : Blank block
    · rw [readAll_cons_blank hb, readAll_cons_blank hb, ← ih, Nat.add_right_comm]
    · rw [readAll_cons_of_not_blank hb, readAll_cons_of_not_blank hb, Nat.add_right_comm, ih,
        read_later]
      cases read n block with
      | error e => rfl
      | ok p => cases readAll (n + 1) blocks <;> rfl

/-- **Part by part.** The blocks of the second part are read if those of the first part can be. -/
theorem readAll_append (n : Nat) (as bs : List (List Char)) :
    readAll n (as ++ bs)
      = (readAll n as).bind fun ps => (readAll (n + as.length) bs).map (ps ++ ·) := by
  induction as generalizing n with
  | nil =>
    rw [List.nil_append]
    cases readAll n bs <;> rfl
  | cons a as ih =>
    have hn : n + (a :: as).length = n + 1 + as.length := by
      rw [List.length_cons]
      omega
    rw [List.cons_append, hn]
    by_cases ha : Blank a
    · rw [readAll_cons_blank ha, readAll_cons_blank ha, ih]
    · rw [readAll_cons_of_not_blank ha, readAll_cons_of_not_blank ha, ih]
      cases read n a with
      | error e => rfl
      | ok p =>
        cases readAll (n + 1) as with
        | error e => rfl
        | ok ps => cases readAll (n + 1 + as.length) bs <;> rfl

/-- **Text after text.** A text on a new line is read on its own, if it opens with a block: its
    blocks are counted on from those of the text before it. -/
theorem readAll_pieces_append_newline {a b front : List Char} {blocks : List (List Char)}
    (hb : pieces '[' b = front :: blocks) (hfront : Blank front) (n : Nat) :
    readAll n (pieces '[' (a ++ '\n' :: b))
      = (readAll n (pieces '[' a)).bind fun ps =>
          (readAll (n + a.count '[') (pieces '[' b)).map (ps ++ ·) := by
  have hblank : Blank ('\n' :: front) := by
    rw [← List.singleton_append, blank_append]
    exact ⟨by simp [Blank]; decide, hfront⟩
  have hnew : pieces '[' ('\n' :: b) = ('\n' :: front) :: blocks := by
    rw [pieces, if_neg (by decide), hb, extendFirst]
  -- The last block of the first text takes up the blanks in front of the second one.
  rw [← readAll_map_trim, map_trim_pieces_append hnew hblank, readAll_append, readAll_map_trim,
    readAll_map_trim, List.length_map, length_pieces, hb, readAll_cons_blank hfront, Nat.add_assoc]

/-- What is read from the blocks of a text that has no comments. -/
theorem readAll_pieces_trim (n : Nat) (cs : List Char) :
    readAll n (pieces '[' (trim cs)) = readAll n (pieces '[' cs) := by
  rw [← readAll_map_trim, map_trim_pieces_trim (by decide), readAll_map_trim]

end Block

/-- **Reading an artifact** needs no trimming of the text as a whole. -/
theorem parse_eq (text : String) :
    parse text = Block.readAll 0 (Text.pieces '[' (Text.withoutComments text.toList)) := by
  rw [parse, Block.blockTexts, Block.readAll_pieces_trim]

end GameContent
