import GameContent.CommandLine.Job

/-!
# `CommandLine.Directory` — running jobs on a directory of files

A directory holds files by name and nothing else. A job that runs in it prints, reads files of the
directory and replaces them; what a path leads to is decided by its components, of which `.` and
empty ones stay where they are and `..` leads out of the directory.
-/

namespace GameContent

/-- Why a file cannot be read or written. -/
inductive FileError where
  /-- Nothing has the name, or a directory on the way is missing. -/
  | notFound
  /-- A file stands where a directory should be. -/
  | notDirectory
  /-- A directory stands where a file should be. -/
  | isDirectory
  /-- A name or a path is longer than it can be. -/
  | nameTooLong
deriving DecidableEq, Repr

namespace FileError

/-- The number that the system gives the error. -/
def number : FileError → Nat
  | .notFound => 2
  | .notDirectory => 20
  | .isDirectory => 21
  | .nameTooLong => 36

/-- What went wrong. -/
def wording : FileError → String
  | .notFound => "No such file or directory"
  | .notDirectory => "Not a directory"
  | .isDirectory => "Is a directory"
  | .nameTooLong => "File name too long"

/-- The error that the system gives a number. -/
def ofNumber? (n : Nat) : Option FileError :=
  [notFound, notDirectory, isDirectory, nameTooLong].find? (·.number = n)

/-- The wording of an error of the file system with its number. -/
def numbered (n : Nat) (wording : String) : String :=
  wording ++ " (os error " ++ toString n ++ ")"

/-- The wording of the error, with its number. -/
def message (e : FileError) : String :=
  numbered e.number e.wording

theorem ofNumber?_number (e : FileError) : ofNumber? e.number = some e := by
  cases e <;> rfl

end FileError

/-- Files by name. -/
structure Directory where
  /-- The names and the texts of the files. -/
  files : List (String × String)
deriving DecidableEq, Repr

namespace Directory

/-- The text of the file with a name. -/
def get? (d : Directory) (name : String) : Option String :=
  d.files.lookup name

/-- The directory with a file replaced or added. -/
def insert (d : Directory) (name text : String) : Directory :=
  ⟨(name, text) :: d.files.filter (·.1 != name)⟩

/-- Where a name of a path is looked up. -/
inductive Place where
  /-- In the directory itself. -/
  | here
  /-- In a directory around it. What they hold is not known, so nothing is found there. -/
  | outside
deriving DecidableEq, Repr

/-- What a path takes the thing with a name for. -/
inductive Use where
  /-- A file. -/
  | file
  /-- A directory, because the path goes on with slashes only. -/
  | directory
  /-- A directory with something in it. -/
  | deeper
deriving DecidableEq, Repr

/-- What the components after a name take it for. -/
def Use.ofRest : List String → Use
  | [] => .file
  | cs => if cs.any (· ≠ "") then .deeper else .directory

/-- What a path leads to. -/
inductive Target where
  /-- The directory, or one around it. -/
  | directory
  /-- Something with a name, whether it exists or not. -/
  | named (place : Place) (name : String) (use : Use)
deriving DecidableEq, Repr

/-- Whether a component of a path stays where it is. -/
def isIdle (component : String) : Bool :=
  component = "" ∨ component = "."

/-- Where components lead from a place. -/
def follow (place : Place) : List String → Target
  | [] => .directory
  | c :: cs =>
    if isIdle c then follow place cs
    else if c = ".." then follow .outside cs
    else .named place c (.ofRest cs)

/-- Where a path leads. -/
def target (path : String) : Target :=
  let components := (Text.pieces '/' path.toList).map String.ofList
  follow (if path.toList.head? = some '/' then .outside else .here) components

/-- Whether a name has more bytes than names can have. -/
def isLongName (name : String) : Bool :=
  255 < name.utf8ByteSize

/-- Whether a path has more bytes than paths can have. -/
def isLongPath (path : String) : Bool :=
  4095 < path.utf8ByteSize

/-- The text of the file with a name at a place. -/
def textAt? (d : Directory) (name : String) : Place → Option String
  | .here => d.get? name
  | .outside => none

/-- The directory after a file was written at a place. -/
def put (d : Directory) (name text : String) : Place → Directory
  | .here => d.insert name text
  | .outside => d

/-- The error of a path that takes a name for a directory. -/
def passError (d : Directory) (place : Place) (name : String) : FileError :=
  if (d.textAt? name place).isSome then .notDirectory else .notFound

/-- Reads a file. -/
def read (d : Directory) (path : String) : Except FileError String :=
  if isLongPath path then .error .nameTooLong
  else
    match target path with
    | .directory => .error .isDirectory
    | .named place name use =>
      if isLongName name then .error .nameTooLong
      else if use = .file then (d.textAt? name place).elim (.error .notFound) .ok
      else .error (d.passError place name)

/-- Writes a file. A slash at the end of a path means a directory, before anything is looked up. -/
def write (d : Directory) (path text : String) : Except FileError Directory :=
  if isLongPath path then .error .nameTooLong
  else
    match target path with
    | .directory | .named _ _ .directory => .error .isDirectory
    | .named place name use =>
      if isLongName name then .error .nameTooLong
      else if use = .file then .ok (d.put name text place)
      else .error (d.passError place name)

end Directory

/-- What a job leaves behind. -/
structure Outcome where
  /-- The exit code: 0, or 1 after a failure, or 2 after a misuse. -/
  code : Nat
  /-- What was printed. -/
  printed : String
  /-- What was reported. -/
  reported : String
  /-- The files afterwards. -/
  files : Directory

namespace Job

/-- Ends with a failure. -/
def failed (f : Failure) (d : Directory) : Outcome := ⟨1, "", f.report, d⟩

/-- Runs a job in a directory. -/
def run (d : Directory) : Job → Outcome
  | .print text => ⟨0, text, "", d⟩
  | .fail f => failed f d
  | .refuse => ⟨2, "", usage, d⟩
  | .write path text =>
    match d.write path text with
    | .ok d => ⟨0, "", "", d⟩
    | .error e => failed ⟨"failed to write " ++ path, e.message⟩ d
  | .read path next =>
    match d.read path with
    | .ok text => run d (next text)
    | .error e => failed ⟨"failed to read " ++ path, e.message⟩ d

end Job
end GameContent
