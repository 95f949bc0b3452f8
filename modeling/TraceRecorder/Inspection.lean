/-
# Inspections

An inspection says what a finished chunk holds: its digest, its summary and, on request, the
constants that it resolves to and the threads that it describes.

Damage in the entries is reported with the path of the chunk.  Damage in the description of a
thread is reported without it: that is a flaw of a value, not of the file.
-/
import TraceRecorder.Chunk.Summary
import TraceRecorder.Json.Value
import TraceRecorder.Storage.ChunkFile
import TraceRecorder.Text.Digest
import TraceRecorder.Text.Timestamp
import TraceRecorder.ThreadIdentity

namespace TraceRecorder

/-! ## 1. Inspecting -/

/-- The constants of one type. -/
structure ConstantCount where
  count : Nat := 0
  valueBytes : Nat := 0
  deriving DecidableEq, Repr

/-- What the constants of a chunk resolve to. -/
structure ConstantReport where
  table : ConstantTable
  threads : List ThreadRecord

/-- What a chunk holds. -/
structure Inspection where
  path : String
  digest : Bytes
  summary : Summary
  /-- There only if it was asked for. -/
  constants : Option ConstantReport

namespace ConstantReport

/-- How many constants of each type there are, and how large they are together. -/
def counts (r : ConstantReport) : Dict UInt64 ConstantCount :=
  r.table.foldl (fun d constant value =>
    Dict.update d constant.typeId fun seen =>
      let c := seen.getD {}
      ⟨c.count + 1, c.valueBytes + value.length⟩) []

/-- The constants of a chunk. -/
def ofChunk (path : String) (chunk : Bytes) : Except Fault ConstantReport := do
  let table ← (ConstantTable.ofChunk chunk).mapError fun d => .inFile path (.damage d)
  let threads ← table.threads.mapError .damage
  pure ⟨table, threads⟩

end ConstantReport

namespace Inspection

/-- The inspection of some bytes. -/
def ofChunk (path : String) (constants : Bool) (chunk : Bytes) : Except Fault Inspection := do
  let summary ← (Summary.ofChunk chunk).mapError fun d => .inFile path (.damage d)
  let report ← if constants then some <$> ConstantReport.ofChunk path chunk else pure none
  pure ⟨path, Digest.sha256 chunk, summary, report⟩

/-- **The inspection of a chunk file**, which is held by a reader meanwhile. -/
def ofFile (path : String) (constants : Bool) : DiskAction Inspection := do
  let file ← FinishedChunk.openAt path
  let answer := ofChunk path constants file.bytes
  file.close
  Fallible.settle answer

end Inspection

/-! ## 2. Reports -/

/-- A dictionary by type as an object, whose members have the types' names and are in their
order. -/
def Json.ofTypes {ν : Type} (f : ν → Json) (d : Dict UInt64 ν) : Json :=
  .object (d.foldl (fun members entry =>
    Dict.insert members (ConstantType.name entry.1) (f entry.2)) ([] : Dict String Json))

def TypeCount.toJson (c : TypeCount) : Json :=
  .object [("constants", .number c.constants), ("segments", .number c.segments)]

def ConstantCount.toJson (c : ConstantCount) : Json :=
  .object [("count", .number c.count), ("value_bytes", .number c.valueBytes)]

def Json.ofTime (t : Option UInt64) : Json :=
  Json.ofOption (fun ns => .text (Timestamp.rfc3339 ns)) t

/-- A summary. -/
def Summary.toJson (s : Summary) : Json :=
  .object
    [("bytes", .number s.bytes),
     ("checkpoints", .number s.checkpoints),
     ("constants", .number s.constants),
     ("entries", .number s.entries),
     ("first_start", Json.ofTime s.firstStart),
     ("flushpoints", .number s.flushpoints),
     ("last_end", Json.ofTime s.lastEnd),
     ("segments", .number s.segments),
     ("types", Json.ofTypes TypeCount.toJson s.types)]

/-- A thread. -/
def ThreadRecord.toJson (t : ThreadRecord) : Json :=
  .object
    [("carrier", Json.ofOption (fun id => .number id.toNat) t.carrier),
     ("group_id", .number t.groupId.toNat),
     ("id", .number t.id.toNat),
     ("name", .text t.name),
     ("os_id", .number t.osId.toNat),
     ("virtual", .bool t.isVirtual)]

/-- The constants of a chunk. -/
def ConstantReport.toJson (r : ConstantReport) : Json :=
  .object
    [("distinct", .number r.table.size),
     ("threads", .array (r.threads.map ThreadRecord.toJson)),
     ("types", Json.ofTypes ConstantCount.toJson r.counts)]

/-- **The report of an inspection.** -/
def Inspection.toJson (i : Inspection) : Json :=
  .object
    ((i.constants.map fun r => ("constants", r.toJson)).toList ++
      [("path", .text i.path), ("sha256", .text (Digest.hex i.digest)),
       ("summary", i.summary.toJson)])

end TraceRecorder
