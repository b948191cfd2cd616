import GameContent.Artifact.Line

/-!
# `Proofs.Artifact.Lines` — the characters of lines

What each kind of line is made of, and how the text of a sequence of lines grows with it.
-/

namespace GameContent
namespace Line

theorem toList_render_header (indent : Nat) (t : String) :
    (render indent (.header t)).toList = '[' :: (t.toList ++ [']']) := by
  simp [render]

theorem toList_render_field (indent : Nat) (k v : String) :
    (render indent (.field k v)).toList
      = List.replicate indent ' ' ++ (k.toList ++ '=' :: (v.toList ++ [';'])) := by
  simp [render]

theorem toList_render_comment (indent : Nat) (t : String) :
    (render indent (.comment t)).toList = '-' :: '-' :: ' ' :: t.toList := by
  simp [render, commentMarker]

/-- The text of lines: the first one, and the others each after a line break. -/
theorem toList_renderAll_cons (indent : Nat) (l : Line) (ls : List Line) :
    (renderAll indent (l :: ls)).toList
      = (l.render indent).toList ++ ls.flatMap fun m => '\n' :: (m.render indent).toList := by
  induction ls generalizing l with
  | nil => simp [renderAll]
  | cons m ls ih =>
    have h := ih m
    rw [renderAll, List.map_cons] at h
    rw [renderAll, List.map_cons, List.map_cons, String.intercalate_cons_cons, String.toList_append,
      String.toList_append, h]
    simp

/-- The text of lines that continue others. -/
theorem toList_renderAll_append (indent : Nat) (l : Line) (ls ms : List Line) :
    (renderAll indent (l :: ls ++ ms)).toList
      = (renderAll indent (l :: ls)).toList
        ++ ms.flatMap fun m => '\n' :: (m.render indent).toList := by
  rw [List.cons_append, toList_renderAll_cons, toList_renderAll_cons, List.flatMap_append,
    List.append_assoc]

end Line
end GameContent
