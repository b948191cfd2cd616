import GameContent.Proofs.Transition.Rendering
import Mathlib.Algebra.Order.BigOperators.Group.List
import Mathlib.Algebra.Order.Group.Nat

/-!
# `Proofs.Transition.Placeholders` — what a property contributes to a rendered template

A rendered template is put together from the texts of its pieces (`toList_of_render_eq_ok`), and a
property contributes where the template mentions it. So rendering after the property was set gives
the same text as before exactly when the template does not mention the property or the new value has
the text of the old one (`render_set_eq_ok_iff`). Other placeholders cannot make up for a difference:
each occurrence of the property makes the text longer, or none does.
-/

namespace GameContent

/-! ## Concatenations that are equal -/

section Concatenation

variable {α β : Type} {f f' : α → List β} {as : List α}

/-- Of two equal concatenations, where no part of the first one is longer than that of the second,
    all parts are equal. -/
theorem forall_eq_of_flatMap_eq (hle : ∀ a ∈ as, (f a).length ≤ (f' a).length)
    (h : as.flatMap f = as.flatMap f') : ∀ a ∈ as, f a = f' a := by
  induction as with
  | nil =>
    intro a ha
    exact absurd ha List.not_mem_nil
  | cons a as ih =>
    obtain ⟨ha, has⟩ := List.forall_mem_cons.1 hle
    rw [List.flatMap_cons, List.flatMap_cons] at h
    have hrest : (as.flatMap f).length ≤ (as.flatMap f').length := by
      rw [List.length_flatMap, List.length_flatMap]
      exact List.sum_le_sum has
    have hlength := congrArg List.length h
    rw [List.length_append, List.length_append] at hlength
    obtain ⟨hhead, htail⟩ := List.append_inj h (by omega)
    intro b hb
    rcases List.mem_cons.1 hb with rfl | hm
    · exact hhead
    · exact ih has htail b hm

/-- If the parts can differ at one element only, the concatenations are equal exactly when they do
    not differ there. -/
theorem flatMap_eq_flatMap_iff {a : α} (hoff : ∀ b, b ≠ a → f b = f' b) :
    as.flatMap f = as.flatMap f' ↔ (a ∈ as → f a = f' a) := by
  constructor
  · intro h ha
    rcases Nat.le_total (f a).length (f' a).length with hle | hle
    · refine forall_eq_of_flatMap_eq (fun b _ => ?_) h a ha
      by_cases hb : b = a
      · rw [hb]
        exact hle
      · exact (congrArg List.length (hoff b hb)).le
    · refine (forall_eq_of_flatMap_eq (fun b _ => ?_) h.symm a ha).symm
      by_cases hb : b = a
      · rw [hb]
        exact hle
      · exact (congrArg List.length (hoff b hb)).ge
  · intro h
    refine List.flatMap_congr fun b hb => ?_
    by_cases hba : b = a
    · rw [hba]
      exact h (hba ▸ hb)
    · exact hoff b hba

end Concatenation

namespace Template

/-! ## The text of a template -/

variable {template : String} {days : Nat} {bag : Option Properties}

/-- The text of a piece, if it stands for anything. -/
def Piece.chars (days : Nat) (bag : Option Properties) : Piece → List Char
  | .literal c => [c]
  | .placeholder name => ((valueOf? days bag (String.ofList name)).getD "").toList
  | .unbalanced _ => []

theorem Piece.toList_of_render_eq_ok {p : Piece} {text : String}
    (h : p.render template days bag = .ok text) : text.toList = p.chars days bag := by
  cases p with
  | literal c =>
    rw [← Except.ok.inj h]
    exact String.toList_singleton c
  | unbalanced offset => exact absurd h (by simp [Piece.render])
  | placeholder name =>
    rw [Piece.render] at h
    rw [Piece.chars]
    cases hv : valueOf? days bag (String.ofList name) with
    | none =>
      rw [hv] at h
      exact absurd h (by simp)
    | some value =>
      rw [hv] at h
      rw [← Except.ok.inj h]
      rfl

theorem toList_of_renderPieces_eq_ok {ps : List Piece} {text : String}
    (h : renderPieces template days bag ps = .ok text) :
    text.toList = ps.flatMap (Piece.chars days bag) := by
  induction ps generalizing text with
  | nil =>
    rw [← Except.ok.inj h]
    rfl
  | cons p ps ih =>
    unfold renderPieces at h
    obtain ⟨first, hfirst, h⟩ := bind_eq_ok_iff.1 h
    obtain ⟨rest, hrest, h⟩ := bind_eq_ok_iff.1 h
    rw [pure_eq_ok_iff.1 h, String.toList_append, List.flatMap_cons,
      Piece.toList_of_render_eq_ok hfirst, ih hrest]

/-- **The text of a template** is put together from the texts of its pieces. -/
theorem toList_of_render_eq_ok {text : String} (h : render template days bag = .ok text) :
    text.toList = (pieces template).flatMap (Piece.chars days bag) :=
  toList_of_renderPieces_eq_ok h

/-! ## One property -/

/-- Whether a template has a placeholder of the given name. -/
def Mentions (template name : String) : Prop :=
  Piece.placeholder name.toList ∈ pieces template

instance (template name : String) : Decidable (Mentions template name) :=
  inferInstanceAs (Decidable (_ ∈ _))

variable {key : String} {value : Value}

theorem chars_placeholder (hdays : key ≠ "days") (hs : key ≠ "s") :
    (Piece.placeholder key.toList).chars days bag
      = (((bag.bind (·.get? key)).map Value.render).getD "").toList := by
  rw [Piece.chars, valueOf?, String.ofList_toList, if_neg hdays, if_neg hs]

/-- Setting a property changes no piece but the placeholders of that name. -/
theorem chars_set_of_ne {p : Piece} (h : p ≠ .placeholder key.toList) :
    p.chars days (some ((bag.getD ∅).set key value)) = p.chars days bag := by
  cases p with
  | literal c => rfl
  | unbalanced offset => rfl
  | placeholder name =>
    have hne : String.ofList name ≠ key := by
      intro he
      exact h (by rw [← he, String.toList_ofList])
    have hget : ((bag.getD ∅).set key value).get? (String.ofList name)
        = bag.bind (·.get? (String.ofList name)) := by
      rw [Properties.get?_set, if_neg hne]
      cases bag <;> rfl
    rw [Piece.chars, Piece.chars, valueOf?, valueOf?, Option.bind_some, hget]

/-- **One property.** After a property was set, a template is rendered as before exactly when it
    does not mention the property or the value has the same text as before. -/
theorem render_set_eq_ok_iff (hbag : Renderable template bag) (hdays : key ≠ "days")
    (hs : key ≠ "s") {text : String}
    (htext : render template days (some ((bag.getD ∅).set key value)) = .ok text) :
    render template days bag = .ok text
      ↔ (Mentions template key → (bag.bind (·.get? key)).map Value.render = some value.render) := by
  obtain ⟨text', htext'⟩ : ∃ text', render template days bag = .ok text' :=
    exists_render_eq_ok_iff.2 hbag
  have hoff : ∀ p : Piece, p ≠ .placeholder key.toList →
      p.chars days (some ((bag.getD ∅).set key value)) = p.chars days bag :=
    fun p hp => chars_set_of_ne hp
  have htexts : render template days bag = .ok text ↔ text.toList = text'.toList := by
    rw [htext', String.toList_inj]
    constructor
    · intro h
      exact (Except.ok.inj h).symm
    · rintro rfl
      rfl
  rw [htexts, toList_of_render_eq_ok htext, toList_of_render_eq_ok htext',
    flatMap_eq_flatMap_iff hoff]
  refine forall_congr' fun hmentions => ?_
  rw [chars_placeholder hdays hs, chars_placeholder hdays hs, String.toList_inj, Option.bind_some,
    Properties.get?_set, if_pos rfl, Option.map_some, Option.getD_some]
  -- The template could be rendered before, so the property had a value.
  rcases hbag _ hmentions with hname | hname | ⟨p, rfl, hvalue⟩
  · exact absurd (String.ofList_toList.symm.trans hname) hdays
  · exact absurd (String.ofList_toList.symm.trans hname) hs
  · rw [String.ofList_toList] at hvalue
    obtain ⟨v, hv⟩ := Option.isSome_iff_exists.1 hvalue
    rw [Option.bind_some, hv, Option.map_some, Option.getD_some, Option.some_inj]
    exact eq_comm

end Template
end GameContent
