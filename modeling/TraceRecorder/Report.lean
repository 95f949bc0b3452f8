/-
# Fault reports

A report is the outward form of anything that goes wrong: a kind, and optionally a message, a
hint, the path and the offset it is about, and the text of an underlying cause.  The kind alone
decides the exit code.  `Report.display` is the one-line form; the structured form for the
command line is `Report.toJson`.
-/
namespace TraceRecorder

/-- What sort of fault a report is about. -/
inductive FaultKind where
  | internal
  | usage
  | notFound
  | busy
  | permission
  | corrupt
  | io
  | exhausted
  | epochViolation
  deriving DecidableEq, Repr

namespace FaultKind

/-- The name of a kind in reports. -/
def name : FaultKind → String
  | internal => "Internal"
  | usage => "Usage"
  | notFound => "NotFound"
  | busy => "Busy"
  | permission => "Permission"
  | corrupt => "Corrupt"
  | io => "Io"
  | exhausted => "Exhausted"
  | epochViolation => "EpochViolation"

/-- The exit code of a run that ends with a fault of this kind. -/
def exitCode : FaultKind → Nat
  | internal => 1
  | usage => 2
  | notFound => 3
  | busy => 5
  | permission => 6
  | corrupt => 7
  | io => 8
  | exhausted => 9
  | epochViolation => 10

/-- The message of a report that brings none of its own. -/
def defaultMessage : FaultKind → String
  | internal => "internal error"
  | usage => "usage error"
  | notFound => "not found"
  | busy => "resource is busy"
  | permission => "permission denied"
  | corrupt => "corrupt data"
  | io => "i/o error"
  | exhausted => "buffer memory exhausted"
  | epochViolation => "epoch invariant violated"

/-- Every kind, in the order of the type. -/
def all : List FaultKind :=
  [internal, usage, notFound, busy, permission, corrupt, io, exhausted, epochViolation]

end FaultKind

/-- What is said about a fault. -/
structure Report where
  kind : FaultKind
  message : Option String := none
  hint : Option String := none
  path : Option String := none
  offset : Option Nat := none
  /-- The text of the cause underneath, where there is one. -/
  source : Option String := none
  deriving DecidableEq, Repr

namespace Report

/-- **A fault of this kind is met by dropping the checkpoint**, every other one is passed on. -/
def isExhausted (r : Report) : Bool := r.kind == .exhausted

/-- The report on one line: kind, message, path and offset, each only where it is there. -/
def display (r : Report) : String :=
  r.kind.name
    ++ (match r.message with | some m => ": " ++ m | none => "")
    ++ (match r.path with | some p => " (path: " ++ p ++ ")" | none => "")
    ++ (match r.offset with | some n => " (offset: " ++ toString n ++ ")" | none => "")

/-- The message, or the one that the kind stands for. -/
def messageOrDefault (r : Report) : String := r.message.getD r.kind.defaultMessage

end Report

end TraceRecorder
