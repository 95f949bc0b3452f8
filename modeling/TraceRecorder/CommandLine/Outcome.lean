/-
# Running a command line

A command line is read, its request carried out on a disk, and the answer put into two texts and
an exit code.  Answers go to the standard output as JSON over several lines; a fault goes to the
standard error as JSON on one line, and its kind is the exit code.  A fault that ends the thread
of the program itself ends the program without a report.
-/
import TraceRecorder.CommandLine.Request
import TraceRecorder.Inspection
import TraceRecorder.Json.Printer
import TraceRecorder.Workload.Recording

namespace TraceRecorder

/-! ## 1. Faults -/

namespace Report

/-- **What the user can do about a fault**, said only where the report does not say it. -/
def withHint (r : Report) : Report :=
  match r.hint, r.kind with
  | some _, _ => r
  | none, .busy =>
    { r with hint := some "another recorder holds this chunk; wait for it to finish" }
  | none, .corrupt =>
    { r with hint := some "the chunk may be truncated or was not written by ckpool" }
  | none, .exhausted => { r with hint := some "raise buffer limits in the --config options" }
  | none, .epochViolation => { r with hint := some "this is a recorder bug; please report it" }
  | none, _ => r

/-- A report as JSON: its members are there only where it has them, but a message always is. -/
def toJson (r : Report) : Json :=
  .object [("error", .object
    ((r.source.map fun text => ("causes", Json.array [.text text])).toList
      ++ (r.hint.map fun text => ("hint", Json.text text)).toList
      ++ [("kind", .text r.kind.name), ("message", .text r.messageOrDefault)]
      ++ (r.offset.map fun n => ("offset", Json.number n)).toList
      ++ (r.path.map fun path => ("path", Json.text path)).toList))]

end Report

namespace CommandLine

/-! ## 2. Texts -/

def versionText : String := "ckpool 0.1.0\n"

def overviewText : String :=
  "Checkpoint buffer manager for trace recordings\n\nUsage: ckpool <COMMAND>\n\nCommands:\n"
    ++ String.join (Verb.all.map fun verb => "  " ++ verb.name ++ "\n") ++ "  help\n"

def verbText (verb : Verb) : String :=
  "Usage: ckpool " ++ verb.name
    ++ String.join ((verb.operand?.toList ++ verb.options).map fun p => " " ++ p.display) ++ "\n"

/-- The words that a shell offers behind the program's name. -/
def completionText (shell : Shell) : String :=
  "# " ++ shell.name ++ ": " ++ " ".intercalate (Verb.all.map Verb.name ++ ["help"]) ++ "\n"

/-! ## 3. Answers and outcomes -/

/-- What a run has to say. -/
inductive Answer where
  | overview
  | help (topic : Option Verb)
  | version
  | completion (shell : Shell)
  | recording (r : Recording)
  | inspection (i : Inspection)
  | failure (r : Report)
  /-- The program's thread was ended by a fault. -/
  | ended (r : Report)
  /-- The program was ended by a fault. -/
  | killed (r : Report)

/-- What a run leaves behind for its caller. -/
structure Outcome where
  /-- The exit code, unless the program was killed. -/
  code : Option Nat
  stdout : String := ""
  stderr : String := ""
  deriving DecidableEq, Repr

/-- **The outcome of a run** that took the given time. -/
def Answer.outcome (elapsedMs : Nat) : Answer → Outcome
  | overview => { code := some 2, stderr := overviewText }
  | help none => { code := some 0, stdout := overviewText }
  | help (some verb) => { code := some 0, stdout := verbText verb }
  | version => { code := some 0, stdout := versionText }
  | completion shell => { code := some 0, stdout := completionText shell }
  | recording r => { code := some 0, stdout := (r.toJson elapsedMs).pretty ++ "\n" }
  | inspection i => { code := some 0, stdout := i.toJson.pretty ++ "\n" }
  | failure r => { code := some r.kind.exitCode, stderr := r.toJson.compact ++ "\n" }
  | ended r => { code := some 101, stderr := r.display ++ "\n" }
  | killed r => { code := none, stderr := r.display ++ "\n" }

/-- The answer of an operation that met a fault. -/
def answerOf (fault : Fault) : Answer :=
  if fault.endsProgram then .killed fault.report
  else if fault.endsThread then .ended fault.report
  else .failure fault.report.withHint

/-- The answer of an operation on a disk, and the disk after it. -/
def carryOut {α : Type} (x : DiskAction α) (answer : α → Answer) (d : Disk) : Answer × Disk :=
  match Fallible.runOn x d with
  | (.ok a, d) => (answer a, d)
  | (.error fault, d) => (answerOf fault, d)

/-- A request is carried out on a disk. -/
def Request.run (memory : Memory) (now : UInt64) (d : Disk) : Request → Answer × Disk
  | nothing => (.overview, d)
  | help topic => (.help topic, d)
  | version => (.version, d)
  | completion shell => (.completion shell, d)
  | record plan => carryOut (plan.record memory now) .recording d
  | inspect path constants => carryOut (Inspection.ofFile path constants) .inspection d

/-- **A command line is run** on a disk. -/
def run (words : List String) (memory : Memory) (now : UInt64) (d : Disk) : Answer × Disk :=
  match Request.read words with
  | .error flaw => (.failure flaw.report, d)
  | .ok request => request.run memory now d

end CommandLine

end TraceRecorder
