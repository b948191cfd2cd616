import GameContent.Entity.ValidationError
import GameContent.Record

/-!
# `Entity.Journal` — drafts of journal entries

The text of a journal entry is marked up: first its icons, then its title, then what it says.
-/

namespace GameContent

/-- A draft of a journal entry. -/
structure JournalEntry where
  /-- The id of the entry. -/
  id : String
  /-- The items shown as icons. -/
  icons : List String
  /-- The title, if it was given. -/
  title : Option String
  /-- What the entry says. -/
  text : String
  /-- The properties set so far. -/
  properties : Properties

namespace JournalEntry

/-- The marked-up text under a title. -/
def markup (e : JournalEntry) (title : String) : String :=
  String.join (e.icons.map fun icon => "<itemBig=" ++ icon ++ ">") ++ "<title=" ++ title ++ ">"
    ++ "<brAdj=>" ++ e.text

/-- The record of the entry. It needs a title. -/
def build (e : JournalEntry) : Except ValidationError Record :=
  match e.title with
  | none => .error (.missingTitle e.id)
  | some title =>
    .ok ⟨"JournalEntry", .named e.id, e.properties.set "text" (e.markup title), []⟩

end JournalEntry
end GameContent
