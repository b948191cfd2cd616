/-!
# `Artifact.Line` — the lines of an artifact

An artifact is made of three kinds of line. The text of a sequence of lines has a line break between
any two of them and none at the end.
-/

namespace GameContent

/-- One line of an artifact. -/
inductive Line where
  /-- The header that opens the block of a record. -/
  | header (typeName : String)
  /-- One value of a property. -/
  | field (key value : String)
  /-- One line of a comment. -/
  | comment (text : String)
deriving DecidableEq, Repr

namespace Line

/-- The indentation of fields that the engine itself uses. -/
def defaultIndent : Nat := 4

/-- What a comment line begins with. -/
def commentMarker : String := "--"

/-- The text of a line; only fields are indented. -/
def render (indent : Nat) : Line → String
  | .header typeName => "[" ++ typeName ++ "]"
  | .field key value =>
    String.ofList (List.replicate indent ' ') ++ key ++ "=" ++ value ++ ";"
  | .comment text => commentMarker ++ " " ++ text

/-- The text of several lines. -/
def renderAll (indent : Nat) (lines : List Line) : String :=
  "\n".intercalate (lines.map (render indent))

end Line
end GameContent
