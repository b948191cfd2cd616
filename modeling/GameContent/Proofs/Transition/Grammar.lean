import GameContent.Proofs.Transition.Rendering
import Mathlib.Data.List.Forall2

/-!
# `Proofs.Transition.Grammar` — the grammar of description templates

A template is a sequence of tokens (`Token`): characters other than braces, doubled braces, and
names between braces. Each token has a meaning (`Token.Means`), and the text of a template is made
of the meanings of its tokens. The grammar is said here without the scanner that `render` is.

Two facts join them. The scanner finds the tokens of a text one after the other, whatever follows
them (`piecesFrom_append`): no token can be mistaken for the beginning of another one. And every
text is a sequence of tokens with a meaning up to its end or up to a place where the next one is at
fault (`exists_tokens`). So the outcome of `render` can be read off the tokens (`followsGrammar`).

## Contents
- **Grammar.** `Token`, `Stands`, `Token.Means`, and `FaultAt` for what is no token.
- **Scanning.** What the scanner makes of a token and of a fault.
- **Rendering.** `render_eq_ok` and `render_eq_error` compute the outcome from the tokens.
-/

namespace GameContent
namespace Template

/-! ## The grammar -/

/-- Whether there is no brace among some characters. -/
def BraceFree (cs : List Char) : Prop :=
  ∀ c ∈ cs, isBrace c = false

instance (cs : List Char) : Decidable (BraceFree cs) :=
  inferInstanceAs (Decidable (∀ c ∈ cs, isBrace c = false))

/-- A token of a template. -/
inductive Token where
  /-- A character other than a brace. -/
  | plain (c : Char) (h : isBrace c = false)
  /-- An opening brace, doubled. -/
  | opening
  /-- A closing brace, doubled. -/
  | closing
  /-- A name without braces, between two braces. -/
  | placeholder (name : String) (h : BraceFree name.toList)

/-- How a token is written. -/
def Token.chars : Token → List Char
  | .plain c _ => [c]
  | .opening => ['{', '{']
  | .closing => ['}', '}']
  | .placeholder name _ => '{' :: (name.toList ++ ['}'])

/-- What a name stands for when `days` days are left. The two names that depend on the days come
    before a property of the same name. -/
inductive Stands (days : Nat) (bag : Option Properties) : String → String → Prop where
  /-- The days that are left, as a decimal number. -/
  | days : Stands days bag "days" (toString days)
  /-- No plural for one day … -/
  | singular (h : days = 1) : Stands days bag "s" ""
  /-- … and one for any other number of days. -/
  | plural (h : days ≠ 1) : Stands days bag "s" "s"
  /-- The text of the property with the name. -/
  | property {name : String} {p : Properties} {v : Value} (hdays : name ≠ "days")
      (hs : name ≠ "s") (hbag : bag = some p) (hget : p.get? name = some v) :
      Stands days bag name v.render

/-- The names that stand for something. -/
def Known (bag : Option Properties) (name : String) : Prop :=
  name = "days" ∨ name = "s" ∨ ∃ p, bag = some p ∧ (p.get? name).isSome

/-- What a token means when `days` days are left. -/
inductive Token.Means (days : Nat) (bag : Option Properties) : Token → String → Prop where
  /-- A character means itself. -/
  | plain {c : Char} {h : isBrace c = false} : Means days bag (.plain c h) (String.singleton c)
  /-- A doubled brace means one brace. -/
  | opening : Means days bag .opening "\x7b"
  /-- So it is for closing braces. -/
  | closing : Means days bag .closing "\x7d"
  /-- A placeholder means what its name stands for. -/
  | placeholder {name text : String} {h : BraceFree name.toList}
      (hname : Stands days bag name text) : Means days bag (.placeholder name h) text

/-- Whether a token means anything. -/
def Token.Known (bag : Option Properties) : Token → Prop
  | .placeholder name _ => Template.Known bag name
  | _ => True

/-- Why a template cannot be rendered, the place apart. -/
inductive Fault where
  /-- A brace has no partner. -/
  | unbalanced
  /-- A name stands for nothing. -/
  | unknown (name : String)

/-- The error that reports a fault at a number of bytes from the start of a template. -/
def Fault.error (template : String) (offset : Nat) : Fault → TemplateError
  | .unbalanced => .unbalancedBrace offset template
  | .unknown name => .unknownPlaceholder name template

/-- The fault of a text that does not begin with a token that means anything. -/
inductive FaultAt (bag : Option Properties) : List Char → Fault → Prop where
  /-- The text ends before the placeholder does. -/
  | unclosed {name : List Char} (h : BraceFree name) : FaultAt bag ('{' :: name) .unbalanced
  /-- Another brace opens before the placeholder is closed. Were there no name between the two
      braces, they would be a doubled one. -/
  | reopened {name rest : List Char} (h : BraceFree name) (hne : name ≠ []) :
      FaultAt bag ('{' :: (name ++ '{' :: rest)) .unbalanced
  /-- A closing brace that closes nothing is not doubled. -/
  | lone {rest : List Char} (h : rest.head? ≠ some '}') : FaultAt bag ('}' :: rest) .unbalanced
  /-- The name of the placeholder stands for nothing. -/
  | unknown {name : String} {rest : List Char} (h : BraceFree name.toList)
      (hname : ¬Template.Known bag name) :
      FaultAt bag ('{' :: (name.toList ++ '}' :: rest)) (.unknown name)

/-- The outcome of rendering a template, as the grammar has it. -/
structure FollowsGrammar (template : String) (bag : Option Properties) : Prop where
  /-- A template can be rendered if it is a sequence of tokens that all mean something, and only
      then. -/
  succeeds : ∀ days, (∃ text, render template days bag = .ok text)
    ↔ ∃ tokens : List Token, template.toList = tokens.flatMap Token.chars
      ∧ ∀ t ∈ tokens, t.Known bag
  /-- The text is made of what the tokens mean. -/
  text : ∀ days text, render template days bag = .ok text
    ↔ ∃ (tokens : List Token) (texts : List String), template.toList = tokens.flatMap Token.chars
      ∧ List.Forall₂ (Token.Means days bag) tokens texts ∧ text = String.join texts
  /-- Otherwise the first token that is at fault decides the error. The place of an unbalanced brace
      is the number of bytes before it. -/
  error : ∀ days e, render template days bag = .error e
    ↔ ∃ (tokens : List Token) (rest : List Char) (fault : Fault),
      template.toList = tokens.flatMap Token.chars ++ rest ∧ (∀ t ∈ tokens, t.Known bag)
        ∧ FaultAt bag rest fault
        ∧ e = fault.error template (String.ofList (tokens.flatMap Token.chars)).utf8ByteSize
  /-- The number of days makes no difference to the error. -/
  anyDays : ∀ days days' e, render template days bag = .error e
    ↔ render template days' bag = .error e

variable {template : String} {days : Nat} {bag : Option Properties}

/-! ## Names -/

theorem valueOf?_eq_some_iff {name text : String} :
    valueOf? days bag name = some text ↔ Stands days bag name text := by
  unfold valueOf?
  constructor
  · intro h
    split at h
    · rename_i hdays
      obtain rfl := hdays
      obtain rfl := Option.some.inj h
      exact .days
    · rename_i hdays
      split at h
      · rename_i hs
        obtain rfl := hs
        by_cases hone : days = 1
        · rw [if_pos hone] at h
          obtain rfl := Option.some.inj h
          exact .singular hone
        · rw [if_neg hone] at h
          obtain rfl := Option.some.inj h
          exact .plural hone
      · rename_i hs
        obtain ⟨v, hv, rfl⟩ := Option.map_eq_some_iff.1 h
        obtain ⟨p, hp, hget⟩ := Option.bind_eq_some_iff.1 hv
        exact .property hdays hs hp hget
  · intro h
    cases h with
    | days => rw [if_pos rfl]
    | singular hone => simp [hone]
    | plural hmany => simp [hmany]
    | property hdays hs hbag hget => simp [hdays, hs, hbag, hget]

/-- Whether a name stands for anything does not depend on the days. -/
theorem exists_stands_iff (days : Nat) {name : String} :
    (∃ text, Stands days bag name text) ↔ Known bag name := by
  constructor
  · rintro ⟨text, h⟩
    cases h with
    | days => exact Or.inl rfl
    | singular _ => exact Or.inr (Or.inl rfl)
    | plural _ => exact Or.inr (Or.inl rfl)
    | property _ _ hbag hget => exact Or.inr (Or.inr ⟨_, hbag, by rw [hget]; rfl⟩)
  · intro h
    by_cases hdays : name = "days"
    · subst hdays
      exact ⟨_, .days⟩
    · by_cases hs : name = "s"
      · subst hs
        by_cases hone : days = 1
        · exact ⟨_, .singular hone⟩
        · exact ⟨_, .plural hone⟩
      · obtain ⟨p, hbag, hsome⟩ := (h.resolve_left hdays).resolve_left hs
        obtain ⟨v, hget⟩ := Option.isSome_iff_exists.1 hsome
        exact ⟨_, .property hdays hs hbag hget⟩

theorem valueOf?_eq_none_iff {name : String} :
    valueOf? days bag name = none ↔ ¬Known bag name := by
  rw [← exists_stands_iff days, Option.eq_none_iff_forall_ne_some]
  simp only [ne_eq, valueOf?_eq_some_iff, not_exists]

theorem Token.exists_means_iff (days : Nat) {t : Token} :
    (∃ text, t.Means days bag text) ↔ t.Known bag := by
  cases t with
  | plain c h => exact ⟨fun _ => trivial, fun _ => ⟨_, .plain⟩⟩
  | opening => exact ⟨fun _ => trivial, fun _ => ⟨_, .opening⟩⟩
  | closing => exact ⟨fun _ => trivial, fun _ => ⟨_, .closing⟩⟩
  | placeholder name hfree =>
    show _ ↔ Template.Known bag name
    rw [← exists_stands_iff days]
    constructor
    · rintro ⟨text, h⟩
      cases h with
      | placeholder hname => exact ⟨text, hname⟩
    · rintro ⟨text, hname⟩
      exact ⟨text, .placeholder hname⟩

/-- Tokens all mean something exactly if there is a list of their meanings. -/
theorem exists_forall₂_means_iff (days : Nat) {tokens : List Token} :
    (∃ texts, List.Forall₂ (Token.Means days bag) tokens texts) ↔ ∀ t ∈ tokens, t.Known bag := by
  induction tokens with
  | nil => simp
  | cons t tokens ih =>
    rw [List.forall_mem_cons, ← ih, ← Token.exists_means_iff days]
    constructor
    · rintro ⟨_, h⟩
      cases h with
      | cons hhead htail => exact ⟨⟨_, hhead⟩, _, htail⟩
    · rintro ⟨⟨text, hhead⟩, texts, htail⟩
      exact ⟨text :: texts, .cons hhead htail⟩

/-! ## Scanning -/

theorem byteCount_eq (cs : List Char) : byteCount cs = (String.ofList cs).utf8ByteSize := by
  induction cs with
  | nil => rfl
  | cons c cs ih =>
    rw [byteCount, ih, String.ofList_cons, String.utf8ByteSize_append,
      String.utf8ByteSize_singleton]

theorem byteCount_append (a b : List Char) : byteCount (a ++ b) = byteCount a + byteCount b := by
  rw [byteCount_eq, byteCount_eq, byteCount_eq, String.ofList_append, String.utf8ByteSize_append]

/-- A name is read up to its closing brace. -/
theorem splitName_append {name : List Char} (h : BraceFree name) (rest : List Char) :
    ∃ hlt, splitName (name ++ '}' :: rest) = some (name, ⟨rest, hlt⟩) := by
  have hname : ∀ c ∈ name, (!isBrace c) = true := by simpa [BraceFree] using h
  have hdrop : (name ++ '}' :: rest).dropWhile (!isBrace ·) = '}' :: rest := by
    rw [List.dropWhile_append_of_pos hname]
    rfl
  have htake : (name ++ '}' :: rest).takeWhile (!isBrace ·) = name := by
    rw [List.takeWhile_append_of_pos hname]
    simp [isBrace]
  unfold splitName
  split
  · rename_i rest' hsplit
    obtain ⟨-, rfl⟩ := List.cons.inj (hdrop.symm.trans hsplit)
    refine ⟨by simp; omega, ?_⟩
    simp [htake]
  · rename_i hno
    exact absurd hdrop (hno rest)

/-- A name that is not followed by a closing brace is none. -/
theorem splitName_eq_none {name tail : List Char} (h : BraceFree name)
    (htail : ∀ rest, tail.dropWhile (!isBrace ·) ≠ '}' :: rest) :
    splitName (name ++ tail) = none := by
  have hname : ∀ c ∈ name, (!isBrace c) = true := by simpa [BraceFree] using h
  unfold splitName
  split
  · rename_i rest hsplit
    rw [List.dropWhile_append_of_pos hname] at hsplit
    exact absurd hsplit (htail rest)
  · rfl

/-- The piece that the scanner makes of a token. -/
def Token.piece : Token → Piece
  | .plain c _ => .literal c
  | .opening => .literal '{'
  | .closing => .literal '}'
  | .placeholder name _ => .placeholder name.toList

/-- A brace-free name does not begin with a brace. -/
theorem BraceFree.append_cons_ne {name rest cs : List Char} {c : Char} (h : BraceFree name)
    (hc : c ≠ '{') : name ++ c :: rest ≠ '{' :: cs := by
  intro heq
  cases name with
  | nil => exact hc (List.cons.inj heq).1
  | cons d name =>
    obtain ⟨rfl, -⟩ := List.cons.inj heq
    exact absurd (h _ List.mem_cons_self) (by decide)

/-- **One token.** It is scanned by itself, whatever follows. -/
theorem piecesFrom_token (t : Token) (offset : Nat) (rest : List Char) :
    piecesFrom offset (t.chars ++ rest)
      = t.piece :: piecesFrom (offset + byteCount t.chars) rest := by
  cases t with
  | plain c h =>
    have hopen : c ≠ '{' := by
      rintro rfl
      exact absurd h (by decide)
    have hclose : c ≠ '}' := by
      rintro rfl
      exact absurd h (by decide)
    show piecesFrom offset (c :: rest) = _
    rw [piecesFrom]
    · rfl
    all_goals simp [hopen, hclose]
  | opening =>
    show piecesFrom offset ('{' :: '{' :: rest) = _
    rw [piecesFrom]
    rfl
  | closing =>
    show piecesFrom offset ('}' :: '}' :: rest) = _
    rw [piecesFrom]
    rfl
  | placeholder name h =>
    have hchars : (Token.placeholder name h).chars ++ rest
        = '{' :: (name.toList ++ '}' :: rest) := by
      simp [Token.chars]
    obtain ⟨hlt, hsplit⟩ := splitName_append h rest
    have hcount : byteCount (Token.placeholder name h).chars = byteCount name.toList + 2 := by
      rw [Token.chars, byteCount, byteCount_append]
      show 1 + (byteCount name.toList + 1) = _
      omega
    rw [hchars, piecesFrom, hsplit, hcount]
    · rfl
    · exact fun cs => h.append_cons_ne (by decide)

/-- **Several tokens.** They are scanned one after the other. -/
theorem piecesFrom_append (tokens : List Token) (offset : Nat) (rest : List Char) :
    piecesFrom offset (tokens.flatMap Token.chars ++ rest)
      = tokens.map Token.piece
        ++ piecesFrom (offset + byteCount (tokens.flatMap Token.chars)) rest := by
  induction tokens generalizing offset with
  | nil => rfl
  | cons t tokens ih =>
    rw [List.flatMap_cons, List.append_assoc, piecesFrom_token, ih, byteCount_append,
      Nat.add_assoc]
    rfl

/-- **A fault.** The scanner makes an unbalanced brace of it, or a placeholder that stands for
    nothing. -/
theorem piecesFrom_fault {rest : List Char} {fault : Fault} (h : FaultAt bag rest fault)
    (template : String) (days offset : Nat) :
    ∃ p ps, piecesFrom offset rest = p :: ps
      ∧ p.render template days bag = .error (fault.error template offset) := by
  cases h with
  | @unclosed name hname =>
    have hsplit : splitName name = none := by
      have hend : splitName (name ++ []) = none := splitName_eq_none hname (by simp)
      rwa [List.append_nil] at hend
    refine ⟨.unbalanced offset, [], ?_, rfl⟩
    rw [piecesFrom, hsplit]
    rintro cs rfl
    exact absurd (hname _ List.mem_cons_self) (by decide)
  | @reopened name rest hname hne =>
    have hsplit : splitName (name ++ '{' :: rest) = none := by
      refine splitName_eq_none hname ?_
      simp [isBrace]
    refine ⟨.unbalanced offset, [], ?_, rfl⟩
    rw [piecesFrom, hsplit]
    intro cs heq
    obtain ⟨c, name, rfl⟩ := List.exists_cons_of_ne_nil hne
    obtain ⟨rfl, -⟩ := List.cons.inj heq
    exact absurd (hname _ List.mem_cons_self) (by decide)
  | @lone rest hlone =>
    refine ⟨.unbalanced offset, [], ?_, rfl⟩
    rw [piecesFrom]
    rintro cs rfl
    exact hlone rfl
  | @unknown name rest hfree hname =>
    obtain ⟨hlt, hsplit⟩ := splitName_append hfree rest
    have hnone : valueOf? days bag name = none := valueOf?_eq_none_iff.2 hname
    refine ⟨.placeholder name.toList, piecesFrom (offset + byteCount name.toList + 2) rest, ?_, ?_⟩
    · rw [piecesFrom, hsplit]
      exact fun cs => hfree.append_cons_ne (by decide)
    · rw [Piece.render, String.ofList_toList, hnone]
      rfl

/-! ## Taking a text apart -/

/-- After an opening brace there is a name, and then the text ends or the next brace stands. -/
theorem exists_braceFree (cs : List Char) :
    ∃ name tail, cs = name ++ tail ∧ BraceFree name
      ∧ (tail = [] ∨ (∃ rest, tail = '{' :: rest) ∨ ∃ rest, tail = '}' :: rest) := by
  induction cs with
  | nil => exact ⟨[], [], rfl, by simp [BraceFree], Or.inl rfl⟩
  | cons c cs ih =>
    by_cases hopen : c = '{'
    · exact ⟨[], c :: cs, rfl, by simp [BraceFree], Or.inr (Or.inl ⟨cs, by rw [hopen]⟩)⟩
    · by_cases hclose : c = '}'
      · exact ⟨[], c :: cs, rfl, by simp [BraceFree], Or.inr (Or.inr ⟨cs, by rw [hclose]⟩)⟩
      · obtain ⟨name, tail, rfl, hfree, hend⟩ := ih
        refine ⟨c :: name, tail, rfl, List.forall_mem_cons.2 ⟨?_, hfree⟩, hend⟩
        simp [isBrace, hopen, hclose]

/-- **The first token.** A text that is not empty begins with a token that means something, or there
    is a fault. -/
theorem exists_token (bag : Option Properties) {cs : List Char} (hne : cs ≠ []) :
    (∃ (t : Token) (rest : List Char), cs = t.chars ++ rest ∧ t.Known bag)
      ∨ ∃ fault, FaultAt bag cs fault := by
  obtain ⟨c, cs, rfl⟩ := List.exists_cons_of_ne_nil hne
  by_cases hopen : c = '{'
  · subst hopen
    obtain ⟨name, tail, rfl, hfree, rfl | ⟨rest, rfl⟩ | ⟨rest, rfl⟩⟩ := exists_braceFree cs
    · right
      rw [List.append_nil]
      exact ⟨_, .unclosed hfree⟩
    · cases name with
      | nil => exact Or.inl ⟨.opening, rest, rfl, trivial⟩
      | cons d name => exact Or.inr ⟨_, .reopened hfree (List.cons_ne_nil d name)⟩
    · have hname : (String.ofList name).toList = name := String.toList_ofList
      by_cases hknown : Known bag (String.ofList name)
      · refine Or.inl ⟨.placeholder (String.ofList name) (hname.symm ▸ hfree), rest, ?_, hknown⟩
        simp [Token.chars]
      · right
        have hfault : FaultAt bag ('{' :: ((String.ofList name).toList ++ '}' :: rest)) _ :=
          .unknown (hname.symm ▸ hfree) hknown
        rw [hname] at hfault
        exact ⟨_, hfault⟩
  · by_cases hclose : c = '}'
    · subst hclose
      by_cases hhead : cs.head? = some '}'
      · obtain ⟨rest, rfl⟩ := List.head?_eq_some_iff.1 hhead
        exact Or.inl ⟨.closing, rest, rfl, trivial⟩
      · exact Or.inr ⟨_, .lone hhead⟩
    · have hplain : isBrace c = false := by simp [isBrace, hopen, hclose]
      exact Or.inl ⟨.plain c hplain, cs, rfl, trivial⟩

theorem Token.chars_ne_nil (t : Token) : t.chars ≠ [] := by
  cases t <;> simp [Token.chars]

/-- **All tokens.** A text is a sequence of tokens that mean something, up to its end or up to a
    fault. -/
theorem exists_tokens (bag : Option Properties) (cs : List Char) :
    ∃ (tokens : List Token) (rest : List Char), cs = tokens.flatMap Token.chars ++ rest
      ∧ (∀ t ∈ tokens, t.Known bag) ∧ (rest = [] ∨ ∃ fault, FaultAt bag rest fault) := by
  -- A token has at least one character, so what follows it is shorter.
  induction hn : cs.length using Nat.strongRecOn generalizing cs with
  | ind n ih =>
    by_cases hne : cs = []
    · exact ⟨[], [], hne, by simp, Or.inl rfl⟩
    · rcases exists_token bag hne with ⟨t, rest, rfl, hknown⟩ | hfault
      · have hpos := List.length_pos_of_ne_nil t.chars_ne_nil
        have hlt : rest.length < n := by
          rw [← hn, List.length_append]
          omega
        obtain ⟨tokens, after, rfl, htokens, hend⟩ := ih _ hlt rest rfl
        refine ⟨t :: tokens, after, ?_, List.forall_mem_cons.2 ⟨hknown, htokens⟩, hend⟩
        rw [List.flatMap_cons, List.append_assoc]
      · exact ⟨[], cs, rfl, by simp, Or.inr hfault⟩

/-! ## Rendering -/

theorem Token.render_piece {t : Token} {text : String} (h : t.Means days bag text) :
    t.piece.render template days bag = .ok text := by
  cases h with
  | plain => rfl
  | opening => rfl
  | closing => rfl
  | @placeholder name text hfree hname =>
    rw [Token.piece, Piece.render, String.ofList_toList, valueOf?_eq_some_iff.2 hname]

/-- The meanings of tokens stand before the text of what follows. -/
theorem renderPieces_append {tokens : List Token} {texts : List String}
    (h : List.Forall₂ (Token.Means days bag) tokens texts) (ps : List Piece) :
    renderPieces template days bag (tokens.map Token.piece ++ ps)
      = (renderPieces template days bag ps).map (String.join texts ++ ·) := by
  induction h with
  | nil =>
    show renderPieces template days bag ps = _
    cases renderPieces template days bag ps <;> simp [Except.map, String.join]
  | cons hhead htail ih =>
    rw [List.map_cons, List.cons_append, renderPieces, Token.render_piece hhead, ih]
    cases renderPieces template days bag ps <;>
      simp [bind, Except.bind, pure, Except.pure, Except.map, String.append_assoc]

/-- **The text of a template** is made of the meanings of its tokens. -/
theorem render_eq_ok {tokens : List Token} {texts : List String}
    (hspelled : template.toList = tokens.flatMap Token.chars)
    (hmeans : List.Forall₂ (Token.Means days bag) tokens texts) :
    render template days bag = .ok (String.join texts) := by
  have hpieces := piecesFrom_append tokens 0 []
  rw [List.append_nil, ← hspelled, piecesFrom] at hpieces
  rw [render, pieces, hpieces, renderPieces_append hmeans]
  simp [renderPieces, Except.map]

/-- **The error of a template** is that of its first fault. -/
theorem render_eq_error {tokens : List Token} {rest : List Char} {fault : Fault}
    (hspelled : template.toList = tokens.flatMap Token.chars ++ rest)
    (hknown : ∀ t ∈ tokens, t.Known bag) (hfault : FaultAt bag rest fault) :
    render template days bag = .error
      (fault.error template (String.ofList (tokens.flatMap Token.chars)).utf8ByteSize) := by
  obtain ⟨texts, hmeans⟩ := (exists_forall₂_means_iff days).2 hknown
  obtain ⟨p, ps, hpieces, hp⟩ := piecesFrom_fault hfault template days
    (0 + byteCount (tokens.flatMap Token.chars))
  rw [render, pieces, hspelled, piecesFrom_append, hpieces, renderPieces_append hmeans,
    renderPieces, hp, Nat.zero_add, byteCount_eq]
  rfl

/-- A template is rendered, or there is a first fault. -/
theorem render_cases (template : String) (days : Nat) (bag : Option Properties) :
    (∃ (tokens : List Token) (texts : List String), template.toList = tokens.flatMap Token.chars
        ∧ List.Forall₂ (Token.Means days bag) tokens texts
        ∧ render template days bag = .ok (String.join texts))
      ∨ ∃ (tokens : List Token) (rest : List Char) (fault : Fault),
        template.toList = tokens.flatMap Token.chars ++ rest ∧ (∀ t ∈ tokens, t.Known bag)
          ∧ FaultAt bag rest fault
          ∧ render template days bag = .error
            (fault.error template (String.ofList (tokens.flatMap Token.chars)).utf8ByteSize) := by
  obtain ⟨tokens, rest, hspelled, hknown, rfl | ⟨fault, hfault⟩⟩ :=
    exists_tokens bag template.toList
  · left
    rw [List.append_nil] at hspelled
    obtain ⟨texts, hmeans⟩ := (exists_forall₂_means_iff days).2 hknown
    exact ⟨tokens, texts, hspelled, hmeans, render_eq_ok hspelled hmeans⟩
  · right
    exact ⟨tokens, rest, fault, hspelled, hknown, hfault, render_eq_error hspelled hknown hfault⟩

theorem render_eq_ok_iff {text : String} :
    render template days bag = .ok text
      ↔ ∃ (tokens : List Token) (texts : List String), template.toList = tokens.flatMap Token.chars
        ∧ List.Forall₂ (Token.Means days bag) tokens texts ∧ text = String.join texts := by
  constructor
  · intro h
    rcases render_cases template days bag with ⟨tokens, texts, hspelled, hmeans, hok⟩ |
      ⟨tokens, rest, fault, -, -, -, herror⟩
    · exact ⟨tokens, texts, hspelled, hmeans, Except.ok.inj (h.symm.trans hok)⟩
    · exact absurd (h.symm.trans herror) (by simp)
  · rintro ⟨tokens, texts, hspelled, hmeans, rfl⟩
    exact render_eq_ok hspelled hmeans

theorem render_eq_error_iff {e : TemplateError} :
    render template days bag = .error e
      ↔ ∃ (tokens : List Token) (rest : List Char) (fault : Fault),
        template.toList = tokens.flatMap Token.chars ++ rest ∧ (∀ t ∈ tokens, t.Known bag)
          ∧ FaultAt bag rest fault
          ∧ e = fault.error template (String.ofList (tokens.flatMap Token.chars)).utf8ByteSize := by
  constructor
  · intro h
    rcases render_cases template days bag with ⟨tokens, texts, -, -, hok⟩ |
      ⟨tokens, rest, fault, hspelled, hknown, hfault, herror⟩
    · exact absurd (h.symm.trans hok) (by simp)
    · exact ⟨tokens, rest, fault, hspelled, hknown, hfault, Except.error.inj (h.symm.trans herror)⟩
  · rintro ⟨tokens, rest, fault, hspelled, hknown, hfault, rfl⟩
    exact render_eq_error hspelled hknown hfault

/-- **Templates follow their grammar.** -/
theorem followsGrammar (template : String) (bag : Option Properties) :
    FollowsGrammar template bag where
  succeeds days := by
    constructor
    · rintro ⟨text, h⟩
      obtain ⟨tokens, texts, hspelled, hmeans, -⟩ := render_eq_ok_iff.1 h
      exact ⟨tokens, hspelled, (exists_forall₂_means_iff days).1 ⟨texts, hmeans⟩⟩
    · rintro ⟨tokens, hspelled, hknown⟩
      obtain ⟨texts, hmeans⟩ := (exists_forall₂_means_iff days).2 hknown
      exact ⟨_, render_eq_ok hspelled hmeans⟩
  text days text := render_eq_ok_iff
  error days e := render_eq_error_iff
  anyDays days days' e := by rw [render_eq_error_iff, render_eq_error_iff]

end Template
end GameContent
