/-!
# `Text.Pieces` — cutting and joining text

Texts are taken apart as lists of characters.

## Contents
- `pieces` cuts at every separator and `cut` at the first one.
- `withoutComments` drops what stands between a comment marker and the end of its line.
- `replaceAll` replaces the occurrences of a fragment, left to right and without overlap.
-/

namespace GameContent
namespace Text

/-- Puts a character in front of the first of the pieces. -/
def extendFirst (c : Char) : List (List Char) → List (List Char)
  | [] => [[c]]
  | p :: ps => (c :: p) :: ps

/-- The pieces between the separators. There is always one more piece than separators. -/
def pieces (separator : Char) : List Char → List (List Char)
  | [] => [[]]
  | c :: cs =>
    if c = separator then [] :: pieces separator cs
    else extendFirst c (pieces separator cs)

/-- What stands before and after the first separator, if there is one. -/
def cut (separator : Char) : List Char → Option (List Char × List Char)
  | [] => none
  | c :: cs =>
    if c = separator then some ([], cs)
    else (cut separator cs).map fun (before, after) => (c :: before, after)

mutual

/-- The text without its comments: `--` and the rest of its line, the line break kept. -/
def withoutComments : List Char → List Char
  | [] => []
  | '-' :: '-' :: cs => afterComment cs
  | c :: cs => c :: withoutComments cs

/-- The text from the end of the current line on, without its comments. -/
def afterComment : List Char → List Char
  | [] => []
  | '\n' :: cs => '\n' :: withoutComments cs
  | _ :: cs => afterComment cs

end

/-- The text with every occurrence of `fragment` replaced, found left to right; the first `skip`
    characters belong to an occurrence that was replaced already. -/
def replaceFrom (fragment replacement : List Char) : (skip : Nat) → List Char → List Char
  | _, [] => []
  | skip + 1, _ :: cs => replaceFrom fragment replacement skip cs
  | 0, c :: cs =>
    if fragment.isPrefixOf (c :: cs) then
      replacement ++ replaceFrom fragment replacement (fragment.length - 1) cs
    else c :: replaceFrom fragment replacement 0 cs

/-- The text with every occurrence of a non-empty `fragment` replaced. Occurrences are found from
    left to right and do not overlap. -/
def replaceAll (fragment replacement text : String) : String :=
  String.ofList (replaceFrom fragment.toList replacement.toList 0 text.toList)

/-! ## Lemmas -/

theorem extendFirst_ne_nil (c : Char) (ps : List (List Char)) : extendFirst c ps ≠ [] := by
  cases ps <;> simp [extendFirst]

theorem pieces_ne_nil (separator : Char) (cs : List Char) : pieces separator cs ≠ [] := by
  cases cs with
  | nil => simp [pieces]
  | cons c cs =>
    by_cases h : c = separator
    · simp [pieces, h]
    · simpa [pieces, h] using extendFirst_ne_nil c _

end Text
end GameContent
