import GameContent.Artifact.Block
import GameContent.Proofs.Text.Comments

/-!
# `Proofs.Artifact.Commenting` — comments do not show in what is read

Taking the comments out is the first thing that is done with a text, and a second time it has
nothing to take out. So a text is read like the one that is left of it, errors included
(`parse_congr`), and a comment may be written behind any line. The one exception is a line that ends
in a dash: with the marker behind it, this dash becomes the first one of the marker.
-/

namespace GameContent
open Text

/-- What is left of a text without its comments. -/
def uncommented (text : String) : String :=
  String.ofList (withoutComments text.toList)

/-- In the text `before ++ line ++ after` the part in the middle is a line. -/
structure LineBetween (before line after : String) : Prop where
  /-- It stands at the start of the text or behind a line break. -/
  opens : before = "" ∨ before.toList.getLast? = some '\n'
  /-- There is no line break in it. -/
  unbroken : '\n' ∉ line.toList
  /-- It stands at the end of the text or in front of a line break. -/
  closes : after = "" ∨ after.toList.head? = some '\n'

/-- The comments of a text are taken out in full, nothing else is, and what is read from the text
    does not depend on them. -/
structure CommentsInvisible (text : String) : Prop where
  /-- Of each line there is left what stands in front of its first marker. -/
  lines : List.Forall₂ UpToMarker (pieces '\n' text.toList) (pieces '\n' (uncommented text).toList)
  /-- No marker is left. -/
  clean : Unmarked (uncommented text).toList
  /-- There are as many line breaks as before. -/
  breaks : (uncommented text).toList.count '\n' = text.toList.count '\n'
  /-- A text without a marker stays as it is. -/
  same : Unmarked text.toList → uncommented text = text
  /-- So does what is left of a text. -/
  again : uncommented (uncommented text) = uncommented text
  /-- The same is read from it, be it an error or not. -/
  read : parse (uncommented text) = parse text
  /-- The same is read with one more comment at the end of a line that does not end in a dash. -/
  added : ∀ before line after comment, text = before ++ line ++ after →
    LineBetween before line after → line.toList.getLast? ≠ some '-' → '\n' ∉ comment.toList →
    parse (before ++ (line ++ "--" ++ comment) ++ after) = parse text

theorem toList_uncommented (text : String) :
    (uncommented text).toList = withoutComments text.toList := by
  simp [uncommented]

/-- What is read depends only on what is left without the comments. -/
theorem parse_congr {a b : String} (h : withoutComments a.toList = withoutComments b.toList) :
    parse a = parse b := by
  rw [parse, parse, Block.blockTexts, Block.blockTexts, h]

/-- A line can be exchanged for another one of which the same is left. -/
theorem LineBetween.withoutComments_congr {before line line' after : String}
    (h : LineBetween before line after)
    (hline : withoutComments line'.toList = withoutComments line.toList) :
    withoutComments (before ++ line' ++ after).toList
      = withoutComments (before ++ line ++ after).toList := by
  simp only [String.toList_append, List.append_assoc]
  have hback : withoutComments (line'.toList ++ after.toList)
      = withoutComments (line.toList ++ after.toList) := by
    rcases h.closes with rfl | hafter
    · simpa using hline
    · obtain ⟨rest, hrest⟩ := List.head?_eq_some_iff.1 hafter
      rw [hrest, withoutComments_append_newline, withoutComments_append_newline, hline]
  rcases h.opens with rfl | hbefore
  · simpa using hback
  · obtain ⟨front, hfront⟩ := List.getLast?_eq_some_iff.1 hbefore
    simp only [hfront, List.append_assoc, List.singleton_append]
    rw [withoutComments_append_newline, withoutComments_append_newline, hback]

/-- **Comments do not show.** Taking them out of a text leaves no marker, keeps the lines apart and
    is done once and for all, and neither this nor one more comment changes what is read. -/
theorem commentsInvisible (text : String) : CommentsInvisible text := by
  have hagain : withoutComments (withoutComments text.toList) = withoutComments text.toList :=
    withoutComments_of_unmarked (unmarked_withoutComments text.toList)
  refine ⟨?_, ?_, ?_, ?_, ?_, ?_, ?_⟩
  · rw [toList_uncommented]
    exact upToMarker_withoutComments text.toList
  · rw [toList_uncommented]
    exact unmarked_withoutComments text.toList
  · rw [toList_uncommented]
    exact count_newline_withoutComments text.toList
  · intro h
    rw [uncommented, withoutComments_of_unmarked h, String.ofList_toList]
  · rw [uncommented, toList_uncommented, hagain]
    rfl
  · apply parse_congr
    rw [toList_uncommented, hagain]
  · intro before line after comment htext hline hdash hcomment
    rw [htext]
    apply parse_congr
    apply hline.withoutComments_congr
    have hinserted : (line ++ "--" ++ comment).toList
        = line.toList ++ '-' :: '-' :: comment.toList := by
      simp
    rw [hinserted]
    exact withoutComments_line_append_comment hline.unbroken hdash hcomment

/-- A comment behind a dash takes the dash with it. -/
example : withoutComments "fee=a-".toList = "fee=a-".toList
    ∧ withoutComments "fee=a---cheap".toList = "fee=a".toList := by
  decide +kernel

end GameContent
