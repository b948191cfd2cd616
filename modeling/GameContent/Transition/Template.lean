import GameContent.Properties
import GameContent.Text.Quoted
import GameContent.Value.Rendering

/-!
# `Transition.Template` — description templates

A template is a text with placeholders in braces; a brace that is meant as such is doubled. Two
placeholders depend on the days that are left: `days` is their number and `s` makes a plural.
Any other is the value of that property in a bag.

## Contents
- `pieces` takes a template apart. A brace that fits nowhere ends it.
- `Piece.render` puts the values in, and `render` joins them. The first piece that cannot be
  rendered decides the error.
-/

namespace GameContent

/-- Why a template cannot be rendered. -/
inductive TemplateError where
  /-- A placeholder that stands for nothing. -/
  | unknownPlaceholder (name template : String)
  /-- A brace without its partner, at a number of bytes from the start. -/
  | unbalancedBrace (offset : Nat) (template : String)
deriving DecidableEq, Repr

/-- The wording of the error. -/
def TemplateError.message : TemplateError → String
  | .unknownPlaceholder name template =>
    "unknown placeholder \x7b" ++ name ++ "\x7d in " ++ Text.quoted template
  | .unbalancedBrace offset template =>
    "unbalanced brace at byte " ++ toString offset ++ " in " ++ Text.quoted template

namespace Template

/-- A part of a template. -/
inductive Piece where
  /-- A character that stands for itself. -/
  | literal (c : Char)
  /-- The name between two braces. -/
  | placeholder (name : List Char)
  /-- A brace without its partner, at a number of bytes from the start. -/
  | unbalanced (offset : Nat)
deriving DecidableEq, Repr

/-- Whether a character is a brace. -/
def isBrace (c : Char) : Bool :=
  c = '{' || c = '}'

/-- The number of bytes that the characters take in UTF-8. -/
def byteCount : List Char → Nat
  | [] => 0
  | c :: cs => c.utf8Size + byteCount cs

/-- The name that a placeholder begins with and what follows its closing brace, or `none` if the
    name is not followed by a closing brace. -/
def splitName (cs : List Char) :
    Option (List Char × { rest : List Char // rest.length < cs.length }) :=
  match h : cs.dropWhile (!isBrace ·) with
  | '}' :: rest => some (cs.takeWhile (!isBrace ·), ⟨rest, by
      have hlen := (List.dropWhile_sublist (p := (!isBrace ·)) (l := cs)).length_le
      rw [h, List.length_cons] at hlen
      omega⟩)
  | _ => none

/-- The pieces of a template from a number of bytes on. -/
def piecesFrom (offset : Nat) : List Char → List Piece
  | [] => []
  | '{' :: '{' :: cs => .literal '{' :: piecesFrom (offset + 2) cs
  | '}' :: '}' :: cs => .literal '}' :: piecesFrom (offset + 2) cs
  | '{' :: cs =>
    match splitName cs with
    | some (name, ⟨rest, _⟩) => .placeholder name :: piecesFrom (offset + byteCount name + 2) rest
    | none => [.unbalanced offset]
  | '}' :: _ => [.unbalanced offset]
  | c :: cs => .literal c :: piecesFrom (offset + c.utf8Size) cs
termination_by cs => cs.length

/-- The pieces of a template. -/
def pieces (template : String) : List Piece :=
  piecesFrom 0 template.toList

/-- What a placeholder stands for when `days` days are left, if it stands for anything. -/
def valueOf? (days : Nat) (bag : Option Properties) (name : String) : Option String :=
  if name = "days" then some (toString days)
  else if name = "s" then some (if days = 1 then "" else "s")
  else (bag.bind (·.get? name)).map Value.render

/-- The text of a piece of the given template. -/
def Piece.render (template : String) (days : Nat) (bag : Option Properties) :
    Piece → Except TemplateError String
  | .literal c => .ok (String.singleton c)
  | .placeholder name =>
    match valueOf? days bag (String.ofList name) with
    | some text => .ok text
    | none => .error (.unknownPlaceholder (String.ofList name) template)
  | .unbalanced offset => .error (.unbalancedBrace offset template)

/-- The joined texts of several pieces, or the first error. -/
def renderPieces (template : String) (days : Nat) (bag : Option Properties) :
    List Piece → Except TemplateError String
  | [] => .ok ""
  | p :: ps => do
    let text ← p.render template days bag
    let rest ← renderPieces template days bag ps
    return text ++ rest

/-- The text of a template when `days` days are left. -/
def render (template : String) (days : Nat) (bag : Option Properties) :
    Except TemplateError String :=
  renderPieces template days bag (pieces template)

end Template
end GameContent
