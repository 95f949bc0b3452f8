/-
# Parameters of the command line

Each command takes options by name, and some take one operand by position.  A parameter knows
how it is named in messages and what its values are; `UsageFlaw` is what can be wrong with a
command line, and every flaw is told in one line.
-/
import TraceRecorder.Report
import TraceRecorder.Text.ControlSequence
import TraceRecorder.Text.Decimal

namespace TraceRecorder

namespace CommandLine

/-! ## 1. Commands -/

/-- What the program can be told to do. -/
inductive Verb where
  | record
  | inspect
  | completion
  deriving DecidableEq, Repr

def Verb.all : List Verb := [record, inspect, completion]

/-- The word for a command. -/
def Verb.name : Verb → String
  | record => "record"
  | inspect => "inspect"
  | completion => "completion"

/-- The shells that completion is offered for. -/
inductive Shell where
  | bash
  | elvish
  | fish
  | powershell
  | zsh
  deriving DecidableEq, Repr

def Shell.all : List Shell := [bash, elvish, fish, powershell, zsh]

/-- The word for a shell. -/
def Shell.name : Shell → String
  | bash => "bash"
  | elvish => "elvish"
  | fish => "fish"
  | powershell => "powershell"
  | zsh => "zsh"

/-! ## 2. Parameters -/

/-- What can be given to a command. -/
inductive Parameter where
  | out
  | config
  | threads
  | virtualThreads
  | checkpoints
  | payload
  | chunks
  | threadBufferSize
  | file
  | constants
  | shell
  deriving DecidableEq, Repr

/-- A value of a parameter. -/
inductive Value where
  | path (text : String)
  | number (n : Nat)
  | shell (s : Shell)
  /-- The presence of a flag. -/
  | present
  deriving DecidableEq, Repr

namespace Parameter

/-- The name of an option, without the dashes.  An operand has none. -/
def optionName? : Parameter → Option String
  | out => some "out"
  | config => some "config"
  | threads => some "threads"
  | virtualThreads => some "virtual-threads"
  | checkpoints => some "checkpoints-per-thread"
  | payload => some "payload-bytes"
  | chunks => some "chunks"
  | threadBufferSize => some "thread-buffer-size"
  | constants => some "constants"
  | file | shell => none

/-- The word for a value in messages.  A flag has none. -/
def placeholder? : Parameter → Option String
  | out => some "<OUT>"
  | config => some "<CONFIG>"
  | threads => some "<THREADS>"
  | virtualThreads => some "<VIRTUAL_THREADS>"
  | checkpoints => some "<CHECKPOINTS_PER_THREAD>"
  | payload => some "<PAYLOAD_BYTES>"
  | chunks => some "<CHUNKS>"
  | threadBufferSize => some "<THREAD_BUFFER_SIZE>"
  | file => some "<FILE>"
  | shell => some "<SHELL>"
  | constants => none

/-- A parameter that is given without a value. -/
def isFlag (p : Parameter) : Bool := p.placeholder?.isNone

/-- A parameter in messages: an option's name and the word for its value. -/
def display (p : Parameter) : String :=
  " ".intercalate ((p.optionName?.map ("--" ++ ·)).toList ++ p.placeholder?.toList)

end Parameter

/-- The options of a command. -/
def Verb.options : Verb → List Parameter
  | record => [.out, .config, .threads, .virtualThreads, .checkpoints, .payload, .chunks,
      .threadBufferSize]
  | inspect => [.constants]
  | completion => []

/-- The operand of a command. -/
def Verb.operand? : Verb → Option Parameter
  | record => none
  | inspect => some .file
  | completion => some .shell

/-- What a command cannot do without. -/
def Verb.required : Verb → Parameter
  | record => .out
  | inspect => .file
  | completion => .shell

/-! ## 3. Flaws -/

/-- What is wrong with a command line. -/
inductive UsageFlaw where
  | unknownCommand (word : String)
  | unknownArgument (argument : String)
  | repeated (p : Parameter)
  | missingValue (p : Parameter)
  /-- A value for something that takes none. -/
  | unneededValue (value display : String)
  | badNumber (value : String) (p : Parameter) (flaw : Decimal.Flaw)
  | badChoice (value : String) (p : Parameter)
  | missingArguments
  deriving DecidableEq, Repr

namespace UsageFlaw

/-- A text of the user between quotes: what a terminal shows of it. -/
def quoted (text : String) : String := "'" ++ ControlSequence.visible text ++ "'"

/-- What is told about a flaw. -/
def message : UsageFlaw → String
  | unknownCommand word => "unrecognized subcommand " ++ quoted word
  | unknownArgument argument => "unexpected argument " ++ quoted argument ++ " found"
  | repeated p => "the argument '" ++ p.display ++ "' cannot be used multiple times"
  | missingValue p => "a value is required for '" ++ p.display ++ "' but none was supplied"
  | unneededValue value display =>
    "unexpected value " ++ quoted value ++ " for '" ++ display ++
      "' found; no more were expected"
  | badNumber value p flaw =>
    "invalid value " ++ quoted value ++ " for '" ++ p.display ++ "': " ++ flaw.message
  | badChoice value p => "invalid value " ++ quoted value ++ " for '" ++ p.display ++ "'"
  | missingArguments => "the following required arguments were not provided:"

/-- A character that leaves no mark at the end of a line. -/
def isBlank (c : Char) : Bool :=
  let n := c.toNat
  (0x09 ≤ n && n ≤ 0x0d) || n == 0x20 || n == 0x85 || n == 0xa0 || n == 0x1680
    || (0x2000 ≤ n && n ≤ 0x200a) || n == 0x2028 || n == 0x2029 || n == 0x202f || n == 0x205f
    || n == 0x3000

/-- The first line of a text, without the blanks at its end. -/
def firstLine (text : String) : String :=
  let line := text.toList.takeWhile (· != '\n')
  String.ofList (line.reverse.dropWhile isBlank).reverse

/-- The outward form of a flaw. -/
def report (flaw : UsageFlaw) : Report :=
  { kind := .usage
    message := some (firstLine flaw.message)
    hint := some "run `ckpool --help` for usage" }

end UsageFlaw

/-- **The value that a text stands for.**  Paths and choices must not be empty. -/
def Parameter.value (p : Parameter) (text : String) : Except UsageFlaw Value :=
  match p with
  | .out | .config | .file =>
    if text == "" then .error (.missingValue p) else .ok (.path text)
  | .shell =>
    match Shell.all.find? fun s => s.name == text with
    | some s => .ok (.shell s)
    | none => if text == "" then .error (.missingValue p) else .error (.badChoice text p)
  | .constants => .error (.unneededValue text p.display)
  | _ =>
    match Decimal.read UInt64.size text with
    | .ok n => .ok (.number n)
    | .error flaw => .error (.badNumber text p flaw)

end CommandLine

end TraceRecorder
