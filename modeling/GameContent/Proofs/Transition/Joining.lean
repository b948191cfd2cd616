import GameContent.Proofs.Transition.Grammar

/-!
# `Proofs.Transition.Joining` — templates one after the other

Where a template that can be rendered ends, a token ends. So the tokens of a text that is put behind
it are the ones that this text has by itself, and it does not matter with how many braces the one
ends or the other one begins. Texts are joined accordingly, and so is the error of the text behind:
only the bytes in front of it count (`TemplateError.behind`).

A text whose braces are all doubled is made of tokens that mean its characters. So any text can be
written as a template (`render_doubled`).
-/

namespace GameContent

/-- The error of a template when other text stands in front of the template. -/
def TemplateError.behind (front : String) : TemplateError → TemplateError
  | .unknownPlaceholder name template => .unknownPlaceholder name (front ++ template)
  | .unbalancedBrace offset template => .unbalancedBrace (front.utf8ByteSize + offset)
    (front ++ template)

namespace Template

/-- A text with each of its braces doubled. -/
def doubled (s : String) : String :=
  String.ofList (s.toList.flatMap fun c => if isBrace c then [c, c] else [c])

variable {days : Nat} {bag : Option Properties}

theorem Fault.behind_error (fault : Fault) (front template : String) (offset : Nat) :
    (fault.error template offset).behind front
      = fault.error (front ++ template) (front.utf8ByteSize + offset) := by
  cases fault <;> rfl

/-- **Joining.** The text of a template is followed by that of the template behind it. -/
theorem render_append_ok {a b x y : String} (ha : render a days bag = .ok x)
    (hb : render b days bag = .ok y) : render (a ++ b) days bag = .ok (x ++ y) := by
  obtain ⟨tokens, texts, hspelled, hmeans, rfl⟩ := render_eq_ok_iff.1 ha
  obtain ⟨tokens', texts', hspelled', hmeans', rfl⟩ := render_eq_ok_iff.1 hb
  have hjoined : (a ++ b).toList = (tokens ++ tokens').flatMap Token.chars := by
    rw [String.toList_append, hspelled, hspelled', List.flatMap_append]
  rw [← String.join_append]
  exact render_eq_ok hjoined (List.rel_append hmeans hmeans')

/-- **An error behind.** A template that cannot be rendered cannot be rendered behind another one
    either, for the same reason. -/
theorem render_append_error {a b x : String} {e : TemplateError} (ha : render a days bag = .ok x)
    (hb : render b days bag = .error e) : render (a ++ b) days bag = .error (e.behind a) := by
  obtain ⟨tokens, texts, hspelled, hmeans, -⟩ := render_eq_ok_iff.1 ha
  obtain ⟨tokens', rest, fault, hspelled', hknown', hfault, rfl⟩ := render_eq_error_iff.1 hb
  have hjoined : (a ++ b).toList = (tokens ++ tokens').flatMap Token.chars ++ rest := by
    rw [String.toList_append, hspelled, hspelled', List.flatMap_append, List.append_assoc]
  have hknown : ∀ t ∈ tokens ++ tokens', t.Known bag := by
    intro t ht
    rcases List.mem_append.1 ht with ht | ht
    · exact (exists_forall₂_means_iff days).1 ⟨texts, hmeans⟩ t ht
    · exact hknown' t ht
  have hbytes : (String.ofList ((tokens ++ tokens').flatMap Token.chars)).utf8ByteSize
      = a.utf8ByteSize + (String.ofList (tokens'.flatMap Token.chars)).utf8ByteSize := by
    rw [List.flatMap_append, String.ofList_append, String.utf8ByteSize_append, ← hspelled,
      String.ofList_toList]
  rw [render_eq_error hjoined hknown hfault, hbytes, Fault.behind_error]

/-- A character is what a token means: the character itself, doubled if it is a brace. -/
theorem exists_token_of_char (days : Nat) (bag : Option Properties) (c : Char) :
    ∃ t : Token, t.chars = (if isBrace c then [c, c] else [c])
      ∧ t.Means days bag (String.singleton c) := by
  by_cases hbrace : isBrace c = true
  · rcases (by simpa [isBrace] using hbrace : c = '{' ∨ c = '}') with rfl | rfl
    · exact ⟨.opening, rfl, .opening⟩
    · exact ⟨.closing, rfl, .closing⟩
  · refine ⟨.plain c (Bool.eq_false_iff.2 hbrace), ?_, .plain⟩
    rw [if_neg hbrace]
    rfl

/-- **Doubling.** A text with its braces doubled is rendered as the text. -/
theorem render_doubled (days : Nat) (bag : Option Properties) (s : String) :
    render (doubled s) days bag = .ok s := by
  have htokens : ∀ cs : List Char, ∃ (tokens : List Token) (texts : List String),
      (cs.flatMap fun c => if isBrace c then [c, c] else [c]) = tokens.flatMap Token.chars
        ∧ List.Forall₂ (Token.Means days bag) tokens texts
        ∧ String.join texts = String.ofList cs := by
    intro cs
    induction cs with
    | nil => exact ⟨[], [], rfl, .nil, rfl⟩
    | cons c cs ih =>
      obtain ⟨t, hchars, hmeans⟩ := exists_token_of_char days bag c
      obtain ⟨tokens, texts, hspelled, htexts, hjoin⟩ := ih
      refine ⟨t :: tokens, String.singleton c :: texts, ?_, .cons hmeans htexts, ?_⟩
      · rw [List.flatMap_cons, List.flatMap_cons, hchars, hspelled]
      · rw [String.join_cons, String.ofList_cons, hjoin]
  obtain ⟨tokens, texts, hspelled, hmeans, hjoin⟩ := htokens s.toList
  have hdoubled : (doubled s).toList = tokens.flatMap Token.chars := by
    rw [doubled, String.toList_ofList, hspelled]
  rw [render_eq_ok hdoubled hmeans, hjoin, String.ofList_toList]

/-- **Templates are joined token by token.** Behind a template that can be rendered, another one
    gives the same text or the same error as by itself, and a text whose braces are doubled gives
    itself. -/
theorem joins_and_doubles (days : Nat) (bag : Option Properties) :
    (∀ a b x, render a days bag = .ok x →
        (∀ y, render b days bag = .ok y → render (a ++ b) days bag = .ok (x ++ y))
          ∧ ∀ e, render b days bag = .error e → render (a ++ b) days bag = .error (e.behind a))
      ∧ ∀ s, render (doubled s) days bag = .ok s := by
  refine ⟨fun a b x ha => ⟨fun y hb => ?_, fun e hb => ?_⟩, fun s => ?_⟩
  · exact render_append_ok ha hb
  · exact render_append_error ha hb
  · exact render_doubled days bag s

/-- A template that ends with three closing braces, before one that begins with a closing brace. -/
theorem joins_and_doubles_closing :
    render "é\x7b\x7b\x7bdays\x7d\x7d\x7d" 2 none = .ok "é\x7b2\x7d"
      ∧ render "day\x7bs\x7d\x7d" 2 none
        = .error (.unbalancedBrace 6 "day\x7bs\x7d\x7d")
      ∧ render "é\x7b\x7b\x7bdays\x7d\x7d\x7dday\x7bs\x7d\x7d" 2 none
        = .error (.unbalancedBrace 18 "é\x7b\x7b\x7bdays\x7d\x7d\x7dday\x7bs\x7d\x7d") := by
  have ha : render "é\x7b\x7b\x7bdays\x7d\x7d\x7d" 2 none = .ok "é\x7b2\x7d" := by
    decide +kernel
  have hb : render "day\x7bs\x7d\x7d" 2 none = .error (.unbalancedBrace 6 "day\x7bs\x7d\x7d") := by
    decide +kernel
  exact ⟨ha, hb, ((joins_and_doubles 2 none).1 _ _ _ ha).2 _ hb⟩

end Template
end GameContent
