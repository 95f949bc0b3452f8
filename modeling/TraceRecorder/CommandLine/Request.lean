/-
# Reading the command line

The words of a command line are read from the left.  An option that takes a value gets the next
word, unless that begins with a dash, and is settled late: only when the next option comes, the
operand, or the end is it checked whether it has a value, occurs for the first time and has a
value of its sort.  So an argument that does not belong there is told before anything that is
wrong with the option in front of it.

After a word of two dashes all words are operands.
-/
import TraceRecorder.CommandLine.Parameter
import TraceRecorder.Workload.Plan

namespace TraceRecorder

namespace CommandLine

/-! ## 1. Words -/

/-- What a word looks like. -/
inductive Shape where
  /-- An option by name, with the value behind an equals sign. -/
  | long (name : String) (value : Option String)
  /-- A dash and a letter. -/
  | short (letter : Char)
  /-- Two dashes. -/
  | separator
  | plain
  deriving DecidableEq, Repr

/-- The text in front of the first equals sign, and the one behind it. -/
def splitValue (chars : List Char) : String × Option String :=
  let name := chars.takeWhile (· != '=')
  (String.ofList name,
    match chars.dropWhile (· != '=') with
    | [] => none
    | _ :: value => some (String.ofList value))

/-- The shape of a word.  A single dash is plain. -/
def Shape.of (word : String) : Shape :=
  match word.toList with
  | ['-', '-'] => separator
  | '-' :: '-' :: chars => let (name, value) := splitValue chars; long name value
  | '-' :: letter :: _ => short letter
  | _ => plain

/-! ## 2. The arguments of a command -/

/-- What has been read. -/
structure Given where
  values : List (Parameter × Value) := []
  /-- What is not settled yet, with the text that was given as its value. -/
  pending : Option (Parameter × Option String) := none
  deriving DecidableEq, Repr

namespace Given

def has (g : Given) (p : Parameter) : Bool := g.values.any fun v => v.1 == p

/-- A parameter is given with a text as its value. -/
def accept (g : Given) (p : Parameter) (text : String) : Except UsageFlaw Given :=
  if g.has p then .error (.repeated p)
  else (p.value text).map fun v => { g with values := (p, v) :: g.values }

/-- **Nothing is left open.** -/
def settle (g : Given) : Except UsageFlaw Given :=
  match g.pending with
  | none => .ok g
  | some (p, none) => .error (.missingValue p)
  | some (p, some text) => accept { g with pending := none } p text

/-- An option that takes a value, with or without that value. -/
def option (g : Given) (p : Parameter) (value : Option String) : Except UsageFlaw Given := do
  let g ← g.settle
  match value with
  | some text => g.accept p text
  | none => pure { g with pending := some (p, none) }

/-- A flag. -/
def flag (g : Given) (p : Parameter) : Except UsageFlaw Given := do
  let g ← g.settle
  if g.has p then throw (.repeated p)
  else pure { g with values := (p, .present) :: g.values }

/-- The operand of a command, if it takes one that was not given yet. -/
def operand (g : Given) (verb : Verb) (word : String) : Except UsageFlaw Given :=
  match verb.operand? with
  | none => .error (.unknownArgument word)
  | some p =>
    if g.has p || (g.pending.map Prod.fst) == some p then .error (.unknownArgument word)
    else g.settle.map fun g => { g with pending := some (p, some word) }

/-- A plain word: the value that an option waits for, or the operand. -/
def plain (g : Given) (verb : Verb) (word : String) : Except UsageFlaw Given :=
  match g.pending with
  | some (p, none) => .ok { g with pending := some (p, some word) }
  | _ => g.operand verb word

def operands (g : Given) (verb : Verb) : List String → Except UsageFlaw Given
  | [] => g.settle
  | word :: rest => (g.operand verb word).bind fun g => operands g verb rest

/-- The arguments of a command.  `none` stands for a call for help. -/
def read (verb : Verb) (g : Given) : List String → Except UsageFlaw (Option Given)
  | [] => g.settle.map some
  | word :: rest =>
    match Shape.of word with
    | .separator => (g.operands verb rest).map some
    | .plain => (g.plain verb word).bind fun g => read verb g rest
    | .short 'h' => g.settle.map fun _ => none
    | .short letter => .error (.unknownArgument ("-" ++ letter.toString))
    | .long "help" none => g.settle.map fun _ => none
    | .long "help" (some value) => .error (.unneededValue value "--help")
    | .long name value =>
      match verb.options.find? fun p => p.optionName? == some name with
      | none => .error (.unknownArgument ("--" ++ name))
      | some p =>
        if p.isFlag then
          match value with
          | some value => .error (.unneededValue value p.display)
          | none => (g.flag p).bind fun g => read verb g rest
        else (g.option p value).bind fun g => read verb g rest

/-- The path that was given for a parameter. -/
def path? (g : Given) (p : Parameter) : Option String :=
  g.values.findSome? fun v =>
    match v with
    | (q, .path text) => if q = p then some text else none
    | _ => none

/-- The number that was given for a parameter. -/
def number? (g : Given) (p : Parameter) : Option Nat :=
  g.values.findSome? fun v =>
    match v with
    | (q, .number n) => if q = p then some n else none
    | _ => none

/-- The shell that was given. -/
def shell? (g : Given) : Option Shell :=
  g.values.findSome? fun v =>
    match v with
    | (_, .shell s) => some s
    | _ => none

/-- The plan of a recording into a directory. -/
def plan (g : Given) (out : String) : Plan :=
  let p : Plan := { out := out }
  { p with
    config := g.path? .config
    threads := (g.number? .threads).getD p.threads
    virtualThreads := (g.number? .virtualThreads).getD p.virtualThreads
    checkpoints := (g.number? .checkpoints).getD p.checkpoints
    payload := (g.number? .payload).getD p.payload
    chunks := (g.number? .chunks).getD p.chunks
    threadBufferSize := g.number? .threadBufferSize }

end Given

/-! ## 3. Requests -/

/-- What the program is asked for. -/
inductive Request where
  /-- Nothing: the program tells how it is used. -/
  | nothing
  /-- Help, perhaps with one command. -/
  | help (topic : Option Verb)
  | version
  | record (plan : Plan)
  | inspect (path : String) (constants : Bool)
  | completion (shell : Shell)
  deriving DecidableEq, Repr

namespace Request

def verb? (word : String) : Option Verb := Verb.all.find? fun v => v.name == word

/-- The request of a command whose arguments have been read. -/
def ofGiven (verb : Verb) (g : Given) : Except UsageFlaw Request :=
  let request :=
    match verb with
    | .record => (g.path? .out).map fun out => record (g.plan out)
    | .inspect => (g.path? .file).map fun path => inspect path (g.has .constants)
    | .completion => g.shell?.map completion
  match request with
  | some r => .ok r
  | none => .error .missingArguments

/-- The request of a command with its arguments. -/
def ofVerb (verb : Verb) (arguments : List String) : Except UsageFlaw Request := do
  match ← Given.read verb {} arguments with
  | none => pure (help (some verb))
  | some g => ofGiven verb g

/-- A call for help with a command, which takes no arguments of its own. -/
def ofHelp : List String → Except UsageFlaw Request
  | [] => .ok (help none)
  | word :: rest =>
    match verb? word, rest with
    | some verb, [] => .ok (help (some verb))
    | some _, next :: _ => .error (.unknownCommand next)
    | none, rest =>
      if word == "help" then
        match rest with
        | [] => .ok (help none)
        | next :: _ => .error (.unknownCommand next)
      else .error (.unknownCommand word)

/-- **The request that a command line makes.** -/
def read : List String → Except UsageFlaw Request
  | [] => .ok nothing
  | word :: rest =>
    match Shape.of word with
    | .separator =>
      match rest with
      | [] => .ok nothing
      | next :: _ =>
        if (verb? next).isSome || next == "help" then .error (.unknownArgument next)
        else .error (.unknownCommand next)
    | .short 'h' => .ok (help none)
    | .short 'V' => .ok version
    | .short letter => .error (.unknownArgument ("-" ++ letter.toString))
    | .long "help" none => .ok (help none)
    | .long "version" none => .ok version
    | .long "help" (some value) => .error (.unneededValue value "--help")
    | .long "version" (some value) => .error (.unneededValue value "--version")
    | .long name _ => .error (.unknownArgument ("--" ++ name))
    | .plain =>
      match verb? word with
      | some verb => ofVerb verb rest
      | none => if word == "help" then ofHelp rest else .error (.unknownCommand word)

end Request

end CommandLine

end TraceRecorder
