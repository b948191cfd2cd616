import GameContent.CommandLine.Directory

/-!
# `Main` — the command-line program

The outer layer: it takes the arguments and the environment, and does what the job says.
-/

namespace GameContent

/-- The wording of a failure with a code. Some operations answer the number of the error negated. -/
def describeCode (code : UInt32) (details : String) : String :=
  let n := if code < 0x80000000 then code.toNat else (-code).toNat
  match FileError.ofNumber? n with
  | some e => e.message
  | none => FileError.numbered n details.capitalize

/-- The wording of a failure of the file system. -/
def describeFailure : IO.Error → String
  | .interrupted _ code details | .noFileOrDirectory _ code details => describeCode code details
  | .alreadyExists _ code details | .invalidArgument _ code details
  | .permissionDenied _ code details | .resourceExhausted _ code details
  | .inappropriateType _ code details | .noSuchThing _ code details => describeCode code details
  | .otherError code details | .resourceBusy code details | .resourceVanished code details
  | .unsupportedOperation code details | .hardwareFault code details
  | .unsatisfiedConstraints code details | .illegalOperation code details
  | .protocolError code details | .timeExpired code details => describeCode code details
  | e => toString e

/-- Reports a failure. -/
def reportFailure (f : Failure) : IO UInt32 := do
  IO.eprint f.report
  return 1

/-- Does what a job says, and answers the exit code. -/
def Job.perform : Job → IO UInt32
  | .print text => do
    IO.print text
    return 0
  | .fail f => reportFailure f
  | .refuse => do
    IO.eprint usage
    return 2
  | .write path text => do
    match ← (IO.FS.writeFile path text).toBaseIO with
    | .ok () => return 0
    | .error e => reportFailure ⟨"failed to write " ++ path, describeFailure e⟩
  | .read path next => do
    match ← (IO.FS.readFile path).toBaseIO with
    | .ok text => (next text).perform
    | .error e => reportFailure ⟨"failed to read " ++ path, describeFailure e⟩

end GameContent

open GameContent in
/-- Runs the program. The environment can name a default file for output. -/
def main (args : List String) : IO UInt32 := do
  let defaultOutput ← IO.getEnv "BOATC_OUTPUT"
  (Job.ofArguments defaultOutput args).perform
