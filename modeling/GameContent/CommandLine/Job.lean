import GameContent.Artifact.Encoding
import GameContent.CommandLine.Arguments
import GameContent.Inspection
import GameContent.Transition.Dot

/-!
# `CommandLine.Job` — what a command does

A job says what is printed and which file is read or written, and leaves the doing to whoever runs
it. A failure has a context, which says what was tried, and a cause.
-/

namespace GameContent

/-- Why a command fails. -/
structure Failure where
  /-- What was tried. -/
  context : String
  /-- What went wrong. -/
  cause : String
deriving DecidableEq, Repr

/-- The report of a failure. The lines of the cause are indented. -/
def Failure.report (f : Failure) : String :=
  "Error: " ++ f.context ++ "\n\nCaused by:\n    " ++ Text.replaceAll "\n" "\n    " f.cause ++ "\n"

/-- What is left to be done for a command. -/
inductive Job where
  /-- To print a text. -/
  | print (text : String)
  /-- To report a failure. -/
  | fail (failure : Failure)
  /-- To say that the arguments make no sense. -/
  | refuse
  /-- To write a text to a file. -/
  | write (path text : String)
  /-- To read a file and go on with its text. -/
  | read (path : String) (next : String → Job)

namespace Job

/-- The version of the program. -/
def version : String := "0.1.0"

/-- How the program is used. -/
def usage : String :=
  "Usage: boatc [-v | -q] <command>\n\nCommands:\n"
    ++ "  plants [-p PLANT] [-s SCHEME] [-o FILE]  compile plants\n"
    ++ "  dot -p PLANT [-s SCHEME]                 draw the growth stages of a plant\n"
    ++ "  inspect FILE [--json]                    summarize an artifact\n"

/-- Prints a text and a line break, or writes them to a file. -/
def emit (text : String) : (output : Option String) → Job
  | none => .print (text ++ "\n")
  | some path => .write path (text ++ "\n")

/-- Compiles plants into one artifact. -/
def compilePlants (plants : List Plant) (scheme : IdScheme) (output : Option String) : Job :=
  let block (ctx : Context) : Ending GraphError Nat × Context :=
    match Plant.defineAll scheme plants ctx with
    | (.ok count, ctx) => (.done count, ctx)
    | (.error e, ctx) => (.failed e, ctx)
  match ((∅ : Context).collect block).1 with
  | .done (items, _) => emit (Collection.encode Line.defaultIndent items) output
  | .failed e => .fail ⟨"failed to compile plants", e.message⟩
  | .unwound => .refuse

/-- Draws the expanded growth stages of a plant. -/
def draw (plant : Plant) (scheme : IdScheme) : Job :=
  match plant.graph.expand scheme with
  | .ok g => .print g.toDot
  | .error e => .fail ⟨"failed to expand " ++ plant.name, e.message⟩

/-- Summarizes or dumps the artifact in a file. -/
def inspect (path : String) (json : Bool) : Job :=
  .read path fun text =>
    match parse text with
    | .error e => .fail ⟨"failed to parse " ++ path, e.message⟩
    | .ok ps => .print (if json then Inspection.dump ps ++ "\n" else Inspection.summarize ps)

/-- What is to be done for a command. -/
def ofCommand : Command → Job
  | .plants plant scheme output =>
    compilePlants (plant.elim Plant.all fun p => [p]) scheme output
  | .dot plant scheme => draw plant scheme
  | .inspect path json => inspect path json

/-- What is to be done for a request. -/
def ofRequest : Request → Job
  | .run command => ofCommand command
  | .help => .print usage
  | .version => .print ("boatc " ++ version ++ "\n")
  | .misuse => .refuse

/-- What is to be done for a command line. -/
def ofArguments (defaultOutput : Option String) (args : List String) : Job :=
  ofRequest (.ofArguments defaultOutput args)

end Job
end GameContent
