import GameContent.Proofs.Success
import GameContent.Transition.Template

/-!
# `Proofs.Transition.Rendering` — when a template can be rendered

Whether a piece can be rendered depends on the keys of the bag and on nothing else
(`Piece.Renderable`): not on the days that are left, nor on the values. So a template that can be
rendered once can be rendered for every number of days, and after the bag has got more keys.
-/

namespace GameContent
namespace Template

/-- Whether a piece stands for anything, given a property bag. -/
def Piece.Renderable (bag : Option Properties) : Piece → Prop
  | .literal _ => True
  | .placeholder name =>
    String.ofList name = "days" ∨ String.ofList name = "s"
      ∨ ∃ p, bag = some p ∧ (p.get? (String.ofList name)).isSome
  | .unbalanced _ => False

/-- Whether every piece of a template stands for something. -/
def Renderable (template : String) (bag : Option Properties) : Prop :=
  ∀ p ∈ pieces template, p.Renderable bag

theorem Piece.exists_render_eq_ok_iff {template : String} {days : Nat} {bag : Option Properties}
    {p : Piece} : (∃ text, p.render template days bag = .ok text) ↔ p.Renderable bag := by
  cases p with
  | literal c => simp [Piece.render, Piece.Renderable]
  | unbalanced offset => simp [Piece.render, Piece.Renderable]
  | placeholder name =>
    rw [Piece.render, Piece.Renderable, valueOf?]
    by_cases hd : String.ofList name = "days"
    · simp [hd]
    · by_cases hs : String.ofList name = "s"
      · simp [hs]
      · rw [if_neg hd, if_neg hs]
        cases bag with
        | none => simp [hd, hs]
        | some p => cases hv : p.get? (String.ofList name) <;> simp [hd, hs, hv]

theorem exists_renderPieces_eq_ok_iff {template : String} {days : Nat} {bag : Option Properties}
    {ps : List Piece} :
    (∃ text, renderPieces template days bag ps = .ok text) ↔ ∀ p ∈ ps, p.Renderable bag := by
  induction ps with
  | nil => simp [renderPieces]
  | cons p ps ih =>
    have hp : (∃ text, p.render template days bag = .ok text) ↔ p.Renderable bag :=
      Piece.exists_render_eq_ok_iff
    rw [List.forall_mem_cons, ← ih, ← hp, renderPieces]
    constructor
    · rintro ⟨_, h⟩
      obtain ⟨text, htext, h⟩ := bind_eq_ok_iff.1 h
      obtain ⟨rest, hrest, -⟩ := bind_eq_ok_iff.1 h
      exact ⟨⟨text, htext⟩, rest, hrest⟩
    · rintro ⟨⟨text, htext⟩, rest, hrest⟩
      exact ⟨_, bind_eq_ok_iff.2 ⟨text, htext, bind_eq_ok_iff.2 ⟨rest, hrest, rfl⟩⟩⟩

/-- **A template is rendered exactly when all its pieces stand for something.** -/
theorem exists_render_eq_ok_iff {template : String} {days : Nat} {bag : Option Properties} :
    (∃ text, render template days bag = .ok text) ↔ Renderable template bag :=
  exists_renderPieces_eq_ok_iff

/-- A key more does no harm. -/
theorem Renderable.set {template : String} {bag : Option Properties} (h : Renderable template bag)
    (key : String) (value : Value) :
    Renderable template (some ((bag.getD ∅).set key value)) := by
  intro p hp
  have hr := h p hp
  cases p with
  | literal c => trivial
  | unbalanced offset => exact hr
  | placeholder name =>
    rcases hr with hr | hr | ⟨q, hq, hs⟩
    · exact Or.inl hr
    · exact Or.inr (Or.inl hr)
    · refine Or.inr (Or.inr ⟨_, rfl, ?_⟩)
      rw [hq, Properties.get?_set]
      by_cases hk : String.ofList name = key
      · simp [hk]
      · simpa [hk] using hs

end Template
end GameContent
