/-
# Runs of a recorder

A run is a recorder in use: several writers are open on it at once, and the sinks of finished
chunks are kept beside it.  Whoever uses it makes one `Move` after the other; `Run.step` is what
a move does, and `Run.fault?` the fault that it meets.

A move is `admitted` if it need not wait and all the memory that it asks for is there.  A drain
waits until no writer is open, and a refusal of memory ends the thread that makes the move, or
the program.  `Reachable` are the runs that begin with a new recorder and make admitted moves
only.
-/
import TraceRecorder.Recorder.Drain

namespace TraceRecorder

/-- **What can be done with a recorder.**  A writer is named by its place among the open ones. -/
inductive Move where
  | start (thread : ThreadId) (kind : BufferKind)
  | append (writer : Nat) (segment : Bytes)
  | finish (writer : Nat)
  | abandon (writer : Nat)
  | releaseThread (thread : ThreadId)
  | writeStatics (thread : ThreadId)
  | writeThreads (thread : ThreadId)
  | writeStaticsAndThreads
  | writeTypeSet
  | writeCheckpoint (thread : ThreadInfo) (id : Option ThreadId) (mounted : Option ThreadInfo)
  | writeSimplified (id : ThreadId)
  | registerStatic (relation : Relation)
  | changeStatic (place : Nat) (relation : Relation)
  | registerConstant (c : PendingConstant)
  | clearTypeSet
  | purgeUnloading
  | changeHost (f : Host → Host)
  | setClock (now : UInt64)
  | notifyThreads
  | write
  | flushTypeSet
  | clear
  | shift
  | rotate
  | installSink (sink : Sink)
  | replaceSink (sink : Sink)

/-- **A recorder in use.** -/
structure Run where
  recorder : Recorder
  /-- The open writers. -/
  writers : List Writer := []
  /-- The sinks of the finished chunks, oldest first. -/
  finished : List Sink := []

namespace Run

/-- All sinks that the run has had, oldest first. -/
def sinks (run : Run) : List Sink := run.finished ++ run.recorder.sink.toList

/-- **The bytes of all chunks**, one behind the other. -/
def recorded (run : Run) : Bytes := run.sinks.flatMap Sink.content

def faultOf {α : Type} : Except Fault α → Option Fault
  | .ok _ => none
  | .error fault => some fault

/-- An operation changes the recorder, also if it ends in a fault. -/
def perform {α : Type} (run : Run) (x : Action α) : Option Fault × Run :=
  let (answer, r) := Fallible.runOn x run.recorder
  (faultOf answer, { run with recorder := r })

def change (run : Run) (f : Recorder → Recorder) : Option Fault × Run :=
  (none, { run with recorder := f run.recorder })

/-- One more writer is open. -/
def start (run : Run) (thread : ThreadId) (kind : BufferKind) : Option Fault × Run :=
  match Fallible.runOn (Writer.start thread kind false) run.recorder with
  | (.ok w, r) => (none, { run with recorder := r, writers := run.writers ++ [w] })
  | (.error fault, r) => (some fault, { run with recorder := r })

/-- An open writer takes a segment, and stays open also if the segment meets a fault. -/
def append (run : Run) (writer : Nat) (segment : Bytes) : Option Fault × Run :=
  match run.writers[writer]? with
  | none => (none, run)
  | some w =>
    match Fallible.runOn (w.append segment) run.recorder with
    | (.ok (answer, w), r) =>
      (faultOf answer, { run with recorder := r, writers := run.writers.set writer w })
    | (.error fault, r) => (some fault, { run with recorder := r })

/-- **The last thing that an open writer does.** -/
def close {α : Type} (run : Run) (writer : Nat) (x : Writer → Action α) : Option Fault × Run :=
  match run.writers[writer]? with
  | none => (none, run)
  | some w =>
    let (fault, run) := run.perform (x w)
    (fault, { run with writers := run.writers.eraseIdx writer })

/-- The sink of the recorder is replaced, and the old one kept. -/
def replaceSink (run : Run) (sink : Sink) : Option Fault × Run :=
  match Fallible.runOn (Recorder.replaceSink sink) run.recorder with
  | (.ok old, r) => (none, { run with recorder := r, finished := run.finished ++ old.toList })
  | (.error fault, r) => (some fault, { run with recorder := r })

/-- The fault that a move meets, and the run after it. -/
def act (run : Run) : Move → Option Fault × Run
  | .start thread kind => run.start thread kind
  | .append writer segment => run.append writer segment
  | .finish writer => run.close writer Writer.finish
  | .abandon writer => run.close writer Writer.abandon
  | .releaseThread thread => run.perform (Recorder.releaseThread thread)
  | .writeStatics thread => run.perform (Recorder.writeStatics thread)
  | .writeThreads thread => run.perform (Recorder.writeThreads thread)
  | .writeStaticsAndThreads => run.perform Recorder.writeStaticsAndThreads
  | .writeTypeSet => run.perform Recorder.writeTypeSet
  | .writeCheckpoint thread id mounted =>
    run.perform (Recorder.writeCheckpoint thread id mounted)
  | .writeSimplified id => run.perform (Recorder.writeSimplified id)
  | .registerStatic relation => run.change (·.registerStatic relation)
  | .changeStatic place relation => run.change (·.changeStatic place relation)
  | .registerConstant c => run.change (·.registerConstant c)
  | .clearTypeSet => run.change fun r => r.clearTypeSet.2
  | .purgeUnloading => run.change fun r => r.purgeUnloading.2
  | .changeHost f => run.change (·.changeHost f)
  | .setClock now => run.change (·.setClock now)
  | .notifyThreads => run.change Recorder.notifyThreads
  | .write => run.perform Recorder.write
  | .flushTypeSet => run.perform Recorder.flushTypeSet
  | .clear => run.perform Recorder.clear
  | .shift => run.perform Recorder.shift
  | .rotate => run.perform Recorder.rotate
  | .installSink sink => run.perform (Recorder.installSink sink)
  | .replaceSink sink => run.replaceSink sink

/-- **What a move does.** -/
def step (run : Run) (m : Move) : Run := (run.act m).2

/-- The fault that a move meets, if it meets one. -/
def fault? (run : Run) (m : Move) : Option Fault := (run.act m).1

end Run

namespace Move

/-- The move drains or discards what is pooled, or ends an epoch. -/
def drains : Move → Bool
  | write | flushTypeSet | clear | shift | rotate => true
  | _ => false

def granted (m : Move) (run : Run) : Bool := (run.fault? m).all fun fault => !fault.endsThread

/-- **The move need not wait, and memory for it is there.** -/
def admitted (m : Move) (run : Run) : Prop :=
  (m.drains = true → run.recorder.admitsDrain = true) ∧ m.granted run = true

instance (m : Move) (run : Run) : Decidable (m.admitted run) :=
  inferInstanceAs (Decidable (_ ∧ _))

end Move

namespace Run

/-- **One run goes on to another** by admitted moves. -/
inductive Continues (run : Run) : Run → Prop where
  | refl : Continues run run
  | step {next : Run} (c : Continues run next) (m : Move) (h : m.admitted next) :
      Continues run (next.step m)

/-- **The runs of a new recorder.** -/
inductive Reachable (options : RecorderOptions) : Run → Prop where
  | create {host : Host} {r : Recorder} (h : Recorder.create options host = .ok r) :
      Reachable options { recorder := r }
  | step {run : Run} (c : Reachable options run) (m : Move) (h : m.admitted run) :
      Reachable options (run.step m)

end Run

end TraceRecorder
