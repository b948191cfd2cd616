import GameContent.Proofs.Transition.Frame
import GameContent.Proofs.Transition.Placeholders

/-!
# `Proofs.Transition.Descriptions` — what the states of a chain are described by

The head of a chain is described by its template, rendered against its own properties for all days
(`description?_expand_head`). A waiting state is described by the same template for the days that are
left, but against the properties of the head with the new description among them
(`description?_expand_waiting`). The two bags give the same text exactly when the template does not
mention the description, or when the head is described as it was before (`expand_descriptions`). A
template that quotes the old description is therefore rendered into itself
(`described_from_described_head`).
-/

namespace GameContent
open Expansion

/-- The description of a state. -/
def Graph.description? (g : Graph) (id : String) : Option Value :=
  (g.properties? id).bind (·.get? "description")

/-- The properties of a state with a description. -/
def Graph.describedProperties (g : Graph) (id text : String) : Option Properties :=
  some (((g.properties? id).getD ∅).set "description" text)

variable {scheme : IdScheme} {g g' : Graph}

/-! ## Heads -/

/-- **The head of a chain** is described by its template, rendered for all days against the
    properties that it had. -/
theorem description?_expand_head (h : g.expand scheme = .ok g') {e : Edge} (he : e ∈ g.edges)
    {n : Nat} (hn : e.transition.delay = some n) {template : String}
    (ht : e.transition.description = some template) :
    ∃ text, Template.render template n (g.properties? e.head) = .ok text
      ∧ g'.properties? e.head = g.describedProperties e.head text
      ∧ g'.description? e.head = some (.str text) := by
  obtain ⟨text, htext, hbag⟩ := properties?_expand_template h he hn ht
  refine ⟨text, htext, hbag, ?_⟩
  unfold Graph.description?
  rw [hbag, Option.bind_some, Properties.get?_set, if_pos rfl]

/-- What can be rendered against the properties that the head had can be rendered against those that
    it has. -/
theorem exists_render_describedProperties (h : g.expand scheme = .ok g') {e : Edge}
    (he : e ∈ g.edges) {n : Nat} (hn : e.transition.delay = some n) {template : String}
    (ht : e.transition.description = some template) (text : String) (days : Nat) :
    ∃ left, Template.render template days (g.describedProperties e.head text) = .ok left := by
  have hrenderable := Template.exists_render_eq_ok_iff.1
    ((expand_eq_ok_iff.1 h).1.describable e he n hn template ht)
  exact Template.exists_render_eq_ok_iff.2 (hrenderable.set "description" text)

/-! ## Waiting states -/

theorem get?_describe_some (text : String) (p : Properties) :
    (describe (some text) p).get? "description" = some (.str text) := by
  show (p.set "description" text).get? "description" = _
  rw [Properties.get?_set, if_pos rfl]

/-- **A waiting state** is described by the template of its chain, rendered for the days that are
    left against the properties that its head has in the expanded graph. -/
theorem description?_expand_waiting (h : g.expand scheme = .ok g') {e : Edge} (he : e ∈ g.edges)
    {n : Nat} (hn : e.transition.delay = some n) {template : String}
    (ht : e.transition.description = some template) {k : Nat} (hpos : 0 < k) (hlt : k < n)
    {left : String}
    (hleft : Template.render template (n - k) (g'.properties? e.head) = .ok left) :
    g'.description? (scheme.idAt e.head k) = some (.str left) := by
  obtain ⟨k, rfl⟩ := Nat.exists_eq_succ_of_ne_zero (Nat.ne_of_gt hpos)
  have hd : (⟨e, n⟩ : Delayed) ∈ delayed g := mem_delayed_iff.2 ⟨he, hn⟩
  have htext : descriptionText e.transition.description (n - (k + 1)) (g'.properties? e.head)
      = some left := by
    rw [ht, descriptionText, Option.bind_some, hleft]
    rfl
  unfold Graph.description?
  rw [properties?_expand_waiting h hd (show k < n - 1 by omega), Option.bind_some,
    Delayed.stateAt, htext]
  exact get?_describe_some left _

/-! ## Both -/

/-- **How a chain is described.** Its head gets the text of the template for all days, rendered
    against the properties of the head. A waiting state gets the text for the days that are left,
    rendered against these properties with the new description in them. That is the text which the
    properties of the head alone would give exactly when the template does not mention the
    description or the description of the head does not change. -/
theorem expand_descriptions (h : g.expand scheme = .ok g') :
    ∀ e ∈ g.edges, ∀ n, e.transition.delay = some n →
      ∀ template, e.transition.description = some template →
        ∃ text, Template.render template n (g.properties? e.head) = .ok text
          ∧ g'.description? e.head = some (.str text)
          ∧ ∀ k, 0 < k → k < n → ∃ left,
            Template.render template (n - k) (g.describedProperties e.head text) = .ok left
              ∧ g'.description? (scheme.idAt e.head k) = some (.str left)
              ∧ (Template.render template (n - k) (g.properties? e.head) = .ok left
                ↔ (Template.Mentions template "description" →
                  (g.description? e.head).map Value.render = some text)) := by
  intro e he n hn template ht
  obtain ⟨text, htext, hbag, hhead⟩ := description?_expand_head h he hn ht
  refine ⟨text, htext, hhead, fun k hpos hlt => ?_⟩
  obtain ⟨left, hleft⟩ := exists_render_describedProperties h he hn ht text (n - k)
  refine ⟨left, hleft, ?_, ?_⟩
  · rw [← hbag] at hleft
    exact description?_expand_waiting h he hn ht hpos hlt hleft
  · have hrenderable := Template.exists_render_eq_ok_iff.1 ⟨text, htext⟩
    exact Template.render_set_eq_ok_iff hrenderable (by decide) (by decide) hleft

/-- A letter that takes three days to arrive and quotes its own description while it does. -/
def mailing : Edge :=
  ⟨"letter", "reply", ⟨.newDay, some 3, none, none, some "\x7bdescription\x7d (\x7bdays\x7d)", []⟩, 0⟩

/-- The states of a letter. -/
def letterGraph : Graph :=
  ((∅ : Graph).setProperties "letter" (.ofList [("description", "A letter")])).addTransition
    "letter" "reply" mailing.transition

/-- While the letter is under way the number of days in its description is quoted, too. -/
theorem expand_descriptions_letterGraph :
    ∃ g', letterGraph.expand .suffix = .ok g'
      ∧ g'.description? "letter" = some (.str "A letter (3)")
      ∧ g'.description? "letter__" = some (.str "A letter (3) (1)") := by
  have hok : (letterGraph.expand .suffix).isOk = true := by decide +kernel
  obtain ⟨g', h⟩ := exists_eq_ok_of_isOk hok
  have he : mailing ∈ letterGraph.edges := List.mem_cons_self
  obtain ⟨text, htext, hhead, hwaiting⟩ := expand_descriptions h mailing he 3 rfl _ rfl
  obtain ⟨left, hleft, hlast, -⟩ := hwaiting 2 (by decide) (by decide)
  have hrendered : Template.render "\x7bdescription\x7d (\x7bdays\x7d)" 3
      (letterGraph.properties? "letter") = .ok "A letter (3)" := by decide +kernel
  obtain rfl := Except.ok.inj (htext.symm.trans hrendered)
  have hrendered' : Template.render "\x7bdescription\x7d (\x7bdays\x7d)" 1
      (letterGraph.describedProperties "letter" "A letter (3)") = .ok "A letter (3) (1)" := by
    decide +kernel
  obtain rfl := Except.ok.inj (hleft.symm.trans hrendered')
  exact ⟨g', h, hhead, hlast⟩

/-- **A template that quotes the description** is not rendered against the properties of the head
    alone in a waiting state: these would give another text. -/
theorem described_from_described_head :
    ∃ g', letterGraph.expand .dayIndexed = .ok g'
      ∧ Template.render "\x7bdescription\x7d (\x7bdays\x7d)" 2 (letterGraph.properties? "letter")
        = .ok "A letter (2)"
      ∧ g'.description? "letter__day1" = some (.str "A letter (3) (2)") := by
  have hok : (letterGraph.expand .dayIndexed).isOk = true := by decide +kernel
  obtain ⟨g', h⟩ := exists_eq_ok_of_isOk hok
  have he : mailing ∈ letterGraph.edges := List.mem_cons_self
  obtain ⟨text, htext, hbag, -⟩ := description?_expand_head h he rfl rfl
  have hrendered : Template.render "\x7bdescription\x7d (\x7bdays\x7d)" 3
      (letterGraph.properties? "letter") = .ok "A letter (3)" := by decide +kernel
  obtain rfl := Except.ok.inj (htext.symm.trans hrendered)
  refine ⟨g', h, by decide +kernel, ?_⟩
  have hleft : Template.render "\x7bdescription\x7d (\x7bdays\x7d)" 2
      (g'.properties? mailing.head) = .ok "A letter (3) (2)" := by
    rw [hbag]
    decide +kernel
  exact description?_expand_waiting h he rfl rfl (k := 1) (by decide) (by decide) hleft

end GameContent
