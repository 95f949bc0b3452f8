/-
# Faults

Everything that can go wrong in the library, by cause.  `Fault.report` gives the outward form;
the wording of a cause stands beside its type.
-/
import TraceRecorder.Chunk.Damage
import TraceRecorder.Options
import TraceRecorder.Pool.Arena

namespace TraceRecorder

/-- What a recorder refuses, or finds to be wrong with itself. -/
inductive RecorderFault where
  /-- A drain has nowhere to write to. -/
  | noSink
  /-- A second first sink. -/
  | alreadyInitialized
  /-- An epoch violation has stopped the recorder. -/
  | aborted
  /-- An epoch was to be retired while buffers of it held bytes. -/
  | undrained (buffers : Nat) (epoch : Epoch)
  /-- A lease for the retiring epoch while none is being retired. -/
  | leaseOutsideDrain
  | renewalTooSmall
  | segmentTooLarge
  deriving DecidableEq, Repr

/-- The outward form of a recorder's fault. -/
def RecorderFault.report : RecorderFault → Report
  | noSink =>
    { kind := .usage
      message := some "checkpoint manager has no chunk sink"
      hint := some "call initialize before draining" }
  | alreadyInitialized =>
    { kind := .usage
      message := some "checkpoint manager is already initialized"
      hint := some "use replace_sink to switch chunks" }
  | aborted =>
    { kind := .epochViolation, message := some "checkpoint recorder was aborted" }
  | undrained buffers epoch =>
    { kind := .epochViolation
      message := some (toString buffers ++ " buffers of epoch " ++ toString epoch.value
        ++ " were not drained before the shift") }
  | leaseOutsideDrain =>
    { kind := .usage, message := some "previous-epoch lease outside a drain pass" }
  | renewalTooSmall =>
    { kind := .internal, message := some "renewed buffer cannot hold pending bytes" }
  | segmentTooLarge =>
    { kind := .internal, message := some "segment does not fit a buffer sized for it" }

/-- What is wrong with a file. -/
inductive FileFlaw where
  | missing
  /-- It is there, or could be, but cannot be opened, read or made. -/
  | unusable
  /-- Another recorder writes the chunk. -/
  | lockedByWriter
  /-- The chunk is not finished. -/
  | stillWritten
  /-- The directory for the chunks cannot be made. -/
  | noDirectory
  deriving DecidableEq, Repr

/-- The outward form of a file's flaw. -/
def FileFlaw.report : FileFlaw → Report
  | missing => { kind := .notFound, source := some "No such file or directory (os error 2)" }
  | unusable => { kind := .io, source := some "Input/output error (os error 5)" }
  | lockedByWriter =>
    { kind := .busy
      message := some "chunk file is locked by another recorder"
      source := some "Resource temporarily unavailable (os error 11)" }
  | stillWritten =>
    { kind := .busy
      message := some "chunk file is still being written"
      source := some "Resource temporarily unavailable (os error 11)" }
  | noDirectory =>
    { kind := .io
      message := some "failed to create output directory"
      source := some "Not a directory (os error 20)" }

/-- A fault, by its cause. -/
inductive Fault where
  | damage (d : Damage)
  | pool (p : PoolFault)
  | options (o : OptionFlaw)
  /-- The text is not that of recorder options. -/
  | unreadableOptions
  | recorder (r : RecorderFault)
  | file (f : FileFlaw)
  /-- A sink refused a call, in its own words. -/
  | sink (r : Report)
  /-- An argument that must be positive is zero. -/
  | zeroArgument (name : String)
  /-- There is no memory for something that is no buffer. -/
  | memory (m : MemoryFault)
  /-- A worker's thread was ended by a fault. -/
  | workerEnded
  /-- The cause lies in a file. -/
  | inFile (path : String) (cause : Fault)
  deriving DecidableEq, Repr

namespace Fault

/-- **The outward form of a fault.** -/
def report : Fault → Report
  | damage d => d.report
  | pool p => p.report
  | options o => { kind := .usage, message := some o.message }
  | unreadableOptions =>
    { kind := .usage
      message := some "invalid recorder options"
      source := some "not an object of recorder options" }
  | recorder r => r.report
  | file f => f.report
  | sink r => r
  | zeroArgument name => { kind := .usage, message := some (name ++ " must be positive") }
  | memory m => m.report
  | workerEnded => { kind := .internal, message := some "record worker panicked" }
  | inFile path cause => { cause.report with path := some path }

/-- **The fault is met by dropping the checkpoint.** -/
def isExhausted (f : Fault) : Bool := f.report.isExhausted

/-- The request for memory that the fault comes from. -/
def memory? : Fault → Option MemoryFault
  | pool (.memory m) | memory m => some m
  | _ => none

/-- **The fault ends the thread that meets it.**  Nobody is ready to go on without memory. -/
def endsThread (f : Fault) : Bool := f.memory?.isSome

/-- **The fault ends the program**, and with it all threads. -/
def endsProgram (f : Fault) : Bool := f.memory?.any MemoryFault.endsProgram

/-- Memory for so many bytes is asked for. -/
def reserve (memory : Memory) (size : Nat) : Except Fault Unit :=
  match Memory.refusal? memory.grants size with
  | some m => .error (.memory m)
  | none => .ok ()

/-- What those learn of a fault who wait for a worker's thread. -/
def ofWorker (f : Fault) : Fault := if f.endsThread then workerEnded else f

end Fault

end TraceRecorder
