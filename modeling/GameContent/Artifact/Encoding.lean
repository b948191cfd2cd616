import GameContent.Artifact.Line
import GameContent.Collection
import GameContent.Text.Blank
import GameContent.Text.Pieces
import GameContent.Value.Rendering

/-!
# `Artifact.Encoding` — writing records and collections

A record becomes its header, its `ID` field, a field for each value of its properties, and then the
lines of the records it owns. The `ID` field shows the id of the record, or, if it inherits, that of
the nearest named record around it; a record without identity shows none but still passes the id on
to the records it owns. The items of a collection are separated by one blank line.
-/

namespace GameContent

/-- The fields of a property bag: one for each value that is written out. -/
def Properties.lines (p : Properties) : List Line :=
  p.entries.flatMap fun e => e.2.scalarTexts.map (Line.field e.1)

namespace Identity

/-- The id that a record passes on to the records it owns, given the id passed on to it. -/
def passedOn (owner : Option String) : Identity → Option String
  | .named id => some id
  | _ => owner

/-- The id that a record shows, given the id passed on to it. -/
def shown (owner : Option String) : Identity → Option String
  | .absent => none
  | i => i.passedOn owner

end Identity

mutual

/-- The lines of a record and of the records it owns; `owner` is the id of the nearest named record
    around it. -/
def Record.lines (owner : Option String) : Record → List Line
  | ⟨typeName, identity, properties, subrecords⟩ =>
    .header typeName :: (identity.shown owner).toList.map (Line.field "ID") ++ properties.lines
      ++ Record.subrecordLines (identity.passedOn owner) subrecords

/-- The lines of the records that a record owns. -/
def Record.subrecordLines (owner : Option String) : List Record → List Line
  | [] => []
  | r :: rs => r.lines owner ++ Record.subrecordLines owner rs

end

/-- The text of a record. -/
def Record.encode (indent : Nat) (r : Record) : String :=
  Line.renderAll indent (r.lines none)

/-- The lines of a comment: one for each line of its text, trimmed. -/
def commentLines (text : String) : List Line :=
  (Text.pieces '\n' text.toList).map fun cs => .comment (String.ofList (Text.trim cs))

/-- The text of a comment. -/
def encodeComment (text : String) : String :=
  Line.renderAll Line.defaultIndent (commentLines text)

mutual

/-- The text of an item. -/
def Item.encode (indent : Nat) : Item → String
  | .record r => r.encode indent
  | .comment text => encodeComment text
  | .collection items => "\n\n".intercalate (Collection.encodeItems indent items)

/-- The texts of the items of a collection. -/
def Collection.encodeItems (indent : Nat) : List Item → List String
  | [] => []
  | item :: items => item.encode indent :: Collection.encodeItems indent items

end

/-- The text of a collection: its items with a blank line between them. -/
def Collection.encode (indent : Nat) (items : Collection) : String :=
  "\n\n".intercalate (Collection.encodeItems indent items)

end GameContent
