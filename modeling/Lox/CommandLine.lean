/-
This file is the command line: what the arguments ask for, and what a run of
the program prints, writes and reports as its exit status.
-/

import Lox.Prompt

namespace Lox.CommandLine

/-! ### Arguments -/

/-- What the arguments ask for. -/
structure Invocation where
  script : Option String
  verbosity : Nat
  debugFile : String
  deriving DecidableEq

/-- The reading of a list of arguments. -/
inductive Request where
  | run (invocation : Invocation)
  | help
  | misuse
  deriving DecidableEq

/-- What a single argument is, apart from the ones around it. A debug file may be named in the
same argument. An argument is malformed if it gives an option what that does not take, and unknown
if it looks like an option and is none. -/
inductive Argument where
  | positional
  | verbose (count : Nat)
  | debugFile (name : Option String)
  | help
  | malformed
  | unknown
  | ambiguous
  deriving DecidableEq

/-! ### Single arguments -/

/-- The long options and what they are without and with a value in the same argument. -/
def longOptions : List (List Char × Argument × (List Char → Argument)) :=
  [("--help".toList, .help, fun _ => .malformed),
    ("--debug-file".toList, .debugFile none, fun name => .debugFile (some (String.ofList name)))]

/-- The text in front of the first equals sign and, if there is one, the text behind it. -/
def splitValue (text : List Char) : List Char × Option (List Char) :=
  let name := text.takeWhile (· ≠ '=')
  match text.dropWhile (· ≠ '=') with
  | [] => (name, none)
  | _ :: value => (name, some value)

/-- The text is a decimal number in the digits of any script, with or without a point. -/
def isNumber (text : List Char) : Bool :=
  let isDigit := fun char => (Text.digitValue? char).isSome
  match text.dropWhile isDigit with
  | [] => !text.isEmpty
  | '.' :: fraction => !fraction.isEmpty && fraction.all isDigit
  | _ => false

/-- The text without a newline at its end. -/
def dropNewline (text : List Char) : List Char :=
  if text.getLast? = some '\n' then text.dropLast else text

/-- What an argument is that begins like an option and is none. A minus in front of a number, and
a text with a space in it, can still be meant as a script. -/
def unrecognized (text : List Char) : Argument :=
  if isNumber (dropNewline (text.drop 1)) || text.contains ' ' then .positional else .unknown

/-- A long option, which may be shortened as long as one option alone begins like it. -/
def longArgument (text : List Char) : Argument :=
  let (name, value) := splitValue text
  match longOptions.filter fun option => name.isPrefixOf option.1 with
  | [] => unrecognized text
  | [(_, bare, withValue)] =>
    match value with
    | none => bare
    | some value => withValue value
  | _ => .ambiguous

/-- The letters of the short options. -/
def shortOptions : List Char := ['v', 'h']

/-- Short options that share an argument. -/
def flags (letters : List Char) : Argument :=
  if letters.all shortOptions.contains then
    if letters.contains 'h' then .help else .verbose letters.length
  else
    .malformed

/-- A short option and what follows it: more options, which may stand behind an equals sign. -/
def shortArgument (option : Char) : List Char → Argument
  | ['='] => .malformed
  | '=' :: rest => flags (option :: rest)
  | rest => flags (option :: rest)

/-- What a single argument is. -/
def classify (argument : String) : Argument :=
  match argument.toList with
  | '-' :: '-' :: rest => longArgument ('-' :: '-' :: rest)
  | ['-'] => .positional
  | '-' :: option :: rest =>
    if shortOptions.contains option then shortArgument option rest
    else unrecognized ('-' :: option :: rest)
  | _ => .positional

/-! ### Argument lists -/

/-- What has been made of the arguments read so far. -/
structure Reading where
  invocation : Invocation
  optionBehindScript : Bool
  surplus : Bool

namespace Reading

/-- Nothing has been read. -/
def start : Reading where
  invocation := { script := none, verbosity := 0, debugFile := "debug.txt" }
  optionBehindScript := false
  surplus := false

/-- A positional argument: the first is the script, and there may be no other. -/
def takePositional (reading : Reading) (argument : String) : Reading :=
  if reading.invocation.script.isSome then { reading with surplus := true }
  else { reading with invocation := { reading.invocation with script := some argument } }

/-- An option that changes the invocation. -/
def takeOption (reading : Reading) (change : Invocation → Invocation) : Reading :=
  { reading with
    invocation := change reading.invocation
    optionBehindScript := reading.invocation.script.isSome }

/-- The mark behind which all arguments are positional. It may follow the script directly, but not
an option behind the script. -/
def takeTerminator (reading : Reading) : Reading :=
  { reading with surplus := reading.surplus || reading.optionBehindScript }

/-- What the arguments ask for once all have been read. -/
def request (reading : Reading) : Request :=
  if reading.surplus then .misuse else .run reading.invocation

end Reading

/-- The mark behind which all arguments are positional. -/
def terminator : String := "--"

/-- Reads arguments from left to right. Help ends the reading, and so does a malformed option;
arguments that are merely too many do not. -/
def readArguments (reading : Reading) : List String → Request
  | [] => reading.request
  | argument :: rest =>
    if argument = terminator then
      (rest.foldl Reading.takePositional reading.takeTerminator).request
    else
      match classify argument with
      | .positional => readArguments (reading.takePositional argument) rest
      | .verbose count =>
        let change := fun invocation : Invocation =>
          { invocation with verbosity := invocation.verbosity + count }
        readArguments (reading.takeOption change) rest
      | .debugFile (some name) =>
        readArguments (reading.takeOption ({ · with debugFile := name })) rest
      | .debugFile none =>
        match rest with
        | [] => .misuse
        | name :: rest =>
          if name ≠ terminator ∧ classify name = .positional then
            readArguments (reading.takeOption ({ · with debugFile := name })) rest
          else
            .misuse
      | .help => .help
      | .malformed => .misuse
      | .unknown => readArguments { (reading.takeOption id) with surplus := true } rest
      | .ambiguous => .misuse

/-- Reads the arguments of the program. An ambiguous option in front of the terminator spoils them
all. -/
def request (arguments : List String) : Request :=
  let optionPart := arguments.takeWhile (· ≠ terminator)
  if optionPart.any fun argument => classify argument = .ambiguous then .misuse
  else readArguments .start arguments

/-! ### Paths -/

/-- The slashes that begin a path: two are kept, and any other number counts as one. -/
def pathRoot (path : List Char) : List Char :=
  match (path.takeWhile (· = '/')).length with
  | 0 => []
  | 2 => ['/', '/']
  | _ => ['/']

/-- A path without the parts that are empty or a single point. -/
def normalizePath (path : String) : String :=
  let root := pathRoot path.toList
  let parts := (Text.pieces '/' path.toList).filter fun part => part ≠ [] ∧ part ≠ ['.']
  let text := root ++ List.intercalate ['/'] parts
  if text.isEmpty then "." else String.ofList text

/-! ### Runs -/

/-- What a run of the program leaves: its exit status, what it printed on its two outputs, and the
debug file if it wrote one. -/
structure Result where
  exit : Nat
  out : String
  err : String
  debugFile : Option (String × String)

/-- The exit status for wrong arguments. -/
def misuseStatus : Nat := 64

/-- The exit status for a source with static errors. -/
def rejectedStatus : Nat := 65

/-- The exit status for a script that does not exist. -/
def missingStatus : Nat := 66

/-- The exit status after a runtime error. -/
def failedStatus : Nat := 70

/-- The line that says how the program is used. -/
def usage : String := "Usage: plox [script]\n"

/-- The exit status of a script that ended. -/
def scriptStatus : Ending → Nat
  | .completed => 0
  | .rejected => rejectedStatus
  | .failed _ => failedStatus
  | .unfinished => failedStatus

/-- The exit status of a prompt that ended. -/
def promptStatus : Ending → Nat
  | .failed _ => failedStatus
  | _ => 0

/-- The result of a run that ended on a machine. A debug file is written at every debug level but
0, also if no event was noted. -/
def finish (invocation : Invocation) (status : Nat) (machine : Machine) : Result where
  exit := status
  out := machine.output
  err := ""
  debugFile :=
    if invocation.verbosity = 0 then none
    else some (normalizePath invocation.debugFile, TraceEvent.texts machine.trace.toList)

/-- Runs a script. -/
def runScript (fuel : Nat) (invocation : Invocation) (inputs : Inputs) (source : String) :
    Result :=
  let source := String.ofList (Text.normalizeNewlines source.toList)
  let (ending, machine) :=
    Session.runSource fuel source (.start inputs invocation.verbosity)
  finish invocation (scriptStatus ending) machine

/-- Runs the prompt. -/
def runPrompt (fuel : Nat) (invocation : Invocation) (inputs : Inputs) : Result :=
  let (ending, machine) := Prompt.run fuel (.start inputs invocation.verbosity)
  finish invocation (promptStatus ending) machine

/-- Does what was asked for, given the contents of files and of the standard input, and a clock. -/
def perform (fuel : Nat) (request : Request) (read : String → Option String) (input : String)
    (clock : Nat → Int) : Result :=
  let inputs := Inputs.start (String.ofList (Text.normalizeNewlines input.toList)) clock
  match request with
  | .misuse => { exit := misuseStatus, out := "", err := usage, debugFile := none }
  | .help => { exit := 0, out := usage, err := "", debugFile := none }
  | .run invocation =>
    match invocation.script with
    | none => runPrompt fuel invocation inputs
    | some "" => runPrompt fuel invocation inputs
    | some script =>
      let path := normalizePath script
      match read path with
      | none =>
        { exit := missingStatus, out := "", err := "Error: file " ++ path ++ " not found\n",
          debugFile := none }
      | some source => runScript fuel invocation inputs source

end Lox.CommandLine
