import GameContent.Plant
import GameContent.Text.Pieces

/-!
# `CommandLine.Arguments` — what the command line asks for

The program has three commands, each with options of its own; `--verbose` and `--quiet` may stand
before or after the command. Arguments are read from left to right. What decides first wins: a
request for help or for the version, or the first argument that does not fit.

## Contents
- `Flag` lists the options, with their spellings.
- `Token` is what an argument turns out to be; `tokens` scans the arguments of one level.
- `Settings` gathers the tokens of a level.
- `Request.ofArguments` reads a whole command line.
-/

namespace GameContent

/-- The scheme with a name. -/
def IdScheme.ofName? (s : String) : Option IdScheme :=
  if s = "day-indexed" then some .dayIndexed
  else if s = "suffix" then some .suffix
  else none

/-- What the program does. -/
inductive Command where
  /-- Compiles plants, all of them if none is chosen. -/
  | plants (plant : Option Plant) (scheme : IdScheme) (output : Option String)
  /-- Draws the growth stages of a plant. -/
  | dot (plant : Plant) (scheme : IdScheme)
  /-- Summarizes the artifact in a file, or dumps it. -/
  | inspect (path : String) (json : Bool)
deriving DecidableEq, Repr

/-- What the command line asks for. -/
inductive Request where
  /-- To do something. -/
  | run (command : Command)
  /-- To say how the program is used. -/
  | help
  /-- To say which version of the program this is. -/
  | version
  /-- Nothing that makes sense. -/
  | misuse
deriving DecidableEq, Repr

namespace CommandLine

/-- An option. -/
inductive Flag where
  /-- Log more. -/
  | verbose
  /-- Log less. -/
  | quiet
  /-- Say how the program is used. -/
  | help
  /-- Say which version this is. -/
  | version
  /-- Choose a plant. -/
  | plant
  /-- Choose how waiting states are named. -/
  | scheme
  /-- Write to a file. -/
  | output
  /-- Write JSON. -/
  | json
deriving DecidableEq, Repr

namespace Flag

/-- The long spelling. -/
def long : Flag → String
  | .verbose => "verbose"
  | .quiet => "quiet"
  | .help => "help"
  | .version => "version"
  | .plant => "plant"
  | .scheme => "scheme"
  | .output => "output"
  | .json => "json"

/-- The short spelling, if there is one. -/
def short? : Flag → Option Char
  | .verbose => some 'v'
  | .quiet => some 'q'
  | .help => some 'h'
  | .version => some 'V'
  | .plant => some 'p'
  | .scheme => some 's'
  | .output => some 'o'
  | .json => none

/-- Whether the option needs a value. -/
def takesValue : Flag → Bool
  | .plant | .scheme | .output => true
  | _ => false

end Flag

/-- The options before the command. -/
def topFlags : List Flag := [.verbose, .quiet, .help, .version]

/-- The options of the command `plants`. -/
def plantsFlags : List Flag := [.plant, .scheme, .output, .verbose, .quiet, .help]

/-- The options of the command `dot`. -/
def dotFlags : List Flag := [.plant, .scheme, .verbose, .quiet, .help]

/-- The options of the command `inspect`. -/
def inspectFlags : List Flag := [.json, .verbose, .quiet, .help]

/-! ## Scanning -/

/-- What an argument, or a part of it, turns out to be. -/
inductive Token where
  /-- An option without a value. -/
  | flag (f : Flag)
  /-- An option with its value. -/
  | valued (f : Flag) (value : String)
  /-- An argument that is no option. -/
  | operand (text : String)
  /-- Something that does not fit. Nothing after it counts. -/
  | misfit
deriving DecidableEq, Repr

/-- What a single argument holds: tokens, and perhaps an option whose value is the next argument. -/
structure Scan where
  /-- The tokens of the argument. -/
  tokens : List Token
  /-- The option that waits for its value. -/
  awaiting : Option Flag

/-- Scans what follows the two dashes of a long option. -/
def scanLong (flags : List Flag) (cs : List Char) : Scan :=
  let (name, value) := match Text.cut '=' cs with
    | some (name, value) => (name, some (String.ofList value))
    | none => (cs, none)
  match flags.find? fun f => f.long = String.ofList name, value with
  | none, _ => ⟨[.misfit], none⟩
  | some f, some value => ⟨[if f.takesValue then .valued f value else .misfit], none⟩
  | some f, none => if f.takesValue then ⟨[], some f⟩ else ⟨[.flag f], none⟩

/-- The value that is attached to a short option; an `=` in front does not belong to it. -/
def attachedValue : List Char → String
  | '=' :: cs => String.ofList cs
  | cs => String.ofList cs

/-- Scans what follows the dash of a cluster of short options. -/
def scanShort (flags : List Flag) : List Char → Scan
  | [] => ⟨[], none⟩
  | c :: cs =>
    match flags.find? fun f => f.short? = some c with
    | none => ⟨[.misfit], none⟩
    | some f =>
      if f.takesValue then
        if cs.isEmpty then ⟨[], some f⟩ else ⟨[.valued f (attachedValue cs)], none⟩
      else
        let rest := scanShort flags cs
        ⟨.flag f :: rest.tokens, rest.awaiting⟩

/-- Whether an argument is spelled as an option. A single dash is not. -/
def isOption (arg : String) : Bool :=
  match arg.toList with
  | '-' :: _ :: _ => true
  | _ => false

/-- Scans one argument that is not the two dashes alone. -/
def scanArgument (flags : List Flag) (arg : String) : Scan :=
  match arg.toList with
  | '-' :: '-' :: cs => scanLong flags cs
  | '-' :: c :: cs => scanShort flags (c :: cs)
  | _ => ⟨[.operand arg], none⟩

/-- The tokens of the arguments of one level. After two dashes alone there are only operands. -/
def tokens (flags : List Flag) : List String → List Token
  | [] => []
  | arg :: args =>
    if arg = "--" then args.map .operand
    else
      match scanArgument flags arg with
      | ⟨ts, none⟩ => ts ++ tokens flags args
      | ⟨ts, some f⟩ =>
        match args with
        | [] => ts ++ [.misfit]
        | value :: args =>
          if isOption value then ts ++ [.misfit] else ts ++ .valued f value :: tokens flags args

/-! ## Gathering -/

/-- The options and operands of one level. -/
structure Settings where
  /-- The options so far. None may be given twice. -/
  seen : List Flag
  /-- The chosen plant. -/
  plant : Option Plant
  /-- The chosen scheme. -/
  scheme : Option IdScheme
  /-- The file to write to. -/
  output : Option String
  /-- The operand. -/
  operand : Option String

namespace Settings

/-- No options and no operand. -/
def empty : Settings := ⟨[], none, none, none, none⟩

/-- Notes the value of an option, if it fits. -/
def setValue? (s : Settings) (value : String) : Flag → Option Settings
  | .plant => (Plant.ofName? value).map fun p => { s with plant := some p }
  | .scheme => (IdScheme.ofName? value).map fun i => { s with scheme := some i }
  | .output => if value = "" then none else some { s with output := some value }
  | _ => none

/-- Notes that an option was given, unless it was given already. -/
def mark? (s : Settings) (f : Flag) : Option Settings :=
  if f ∈ s.seen then none else some { s with seen := f :: s.seen }

/-- Notes one token; what decides the whole command line is handed back at once. -/
def addToken (operandAllowed : Bool) (s : Settings) : Token → Except Request Settings
  | .flag .help => .error .help
  | .flag .version => .error .version
  | .flag f => (s.mark? f).elim (.error .misuse) .ok
  | .valued f value => ((s.mark? f).bind (·.setValue? value f)).elim (.error .misuse) .ok
  | .operand text =>
    if operandAllowed ∧ s.operand.isNone ∧ text ≠ "" then
      .ok { s with operand := some text }
    else .error .misuse
  | .misfit => .error .misuse

/-- Notes several tokens in order. -/
def addTokens (operandAllowed : Bool) (s : Settings) : List Token → Except Request Settings
  | [] => .ok s
  | t :: ts =>
    match s.addToken operandAllowed t with
    | .ok s => addTokens operandAllowed s ts
    | .error r => .error r

/-- The settings that the arguments of a level make. -/
def ofArguments (flags : List Flag) (operandAllowed : Bool) (args : List String) :
    Except Request Settings :=
  empty.addTokens operandAllowed (tokens flags args)

end Settings

/-- The file to write to: the option counts, and without it the default, which must not be empty. -/
def chooseOutput (option default : Option String) : Except Request (Option String) :=
  match option, default with
  | some path, _ => .ok (some path)
  | none, some path => if path = "" then .error .misuse else .ok (some path)
  | none, none => .ok none

/-- Reads the arguments after the name of a command. -/
def readCommand (defaultOutput : Option String) (name : String) (args : List String) :
    Except Request Command :=
  if name = "plants" then do
    let s ← Settings.ofArguments plantsFlags false args
    let output ← chooseOutput s.output defaultOutput
    return .plants s.plant (s.scheme.getD .dayIndexed) output
  else if name = "dot" then do
    let s ← Settings.ofArguments dotFlags false args
    match s.plant with
    | some plant => return .dot plant (s.scheme.getD .dayIndexed)
    | none => throw .misuse
  else if name = "inspect" then do
    let s ← Settings.ofArguments inspectFlags true args
    match s.operand with
    | some path => return .inspect path (.json ∈ s.seen)
    | none => throw .misuse
  else throw .misuse

/-- The names that the command `help` explains. -/
def commandNames : List String := ["plants", "dot", "inspect", "help"]

/-- Reads the arguments of the command `help`: what it explains is the program or one command. -/
def readHelp : List String → Request
  | [] => .help
  | [name] => if name ∈ commandNames then .help else .misuse
  | _ => .misuse

/-- Reads the arguments from the options before the command on. -/
def readArguments (defaultOutput : Option String) (s : Settings) :
    List String → Except Request Command
  | [] => .error .misuse
  | arg :: args =>
    if arg = "--" then .error .misuse
    else if isOption arg then
      match s.addTokens false (scanArgument topFlags arg).tokens with
      | .ok s => readArguments defaultOutput s args
      | .error r => .error r
    else if arg = "help" then .error (readHelp args)
    else readCommand defaultOutput arg args

end CommandLine

/-- What a command line asks for. Without an option that says so, output goes to the default file if
    there is one. -/
def Request.ofArguments (defaultOutput : Option String) (args : List String) : Request :=
  match CommandLine.readArguments defaultOutput .empty args with
  | .ok command => .run command
  | .error request => request

end GameContent
