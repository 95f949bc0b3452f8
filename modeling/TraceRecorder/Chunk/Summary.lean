/-
# Chunk summaries

A summary counts what a chunk holds: entries, closed checkpoints and flushpoints, segments and
announced constants, in total and for each type, and the span of time that the entries cover.
Only entries and segment headers are read; pairs are taken at their announced number.
-/
import TraceRecorder.Chunk.Entry
import TraceRecorder.Dict

namespace TraceRecorder

/-- Counts for one constant type. -/
structure TypeCount where
  segments : Nat := 0
  constants : Nat := 0
  deriving DecidableEq, Repr

/-- What a chunk holds in numbers. -/
structure Summary where
  bytes : Nat
  entries : Nat := 0
  /-- Entries that are continued by a later one. -/
  flushpoints : Nat := 0
  /-- Entries that close a checkpoint. -/
  checkpoints : Nat := 0
  segments : Nat := 0
  constants : Nat := 0
  types : Dict UInt64 TypeCount := []
  firstStart : Option UInt64 := none
  lastEnd : Option UInt64 := none
  deriving DecidableEq, Repr

/-- The end of a checkpoint, or the last moment that a word can hold. -/
def Header.endTime (h : Header) : UInt64 :=
  UInt64.ofNat (min (h.startTime.toNat + h.duration.toNat) (UInt64.size - 1))

namespace Summary

def earlier (a b : UInt64) : UInt64 := if b < a then b else a

def later (a b : UInt64) : UInt64 := if a < b then b else a

/-- The summary with one more entry, its segments left out. -/
def addHeader (s : Summary) (h : Header) : Summary :=
  { s with
    entries := s.entries + 1
    flushpoints := s.flushpoints + (if h.flushpoint then 1 else 0)
    checkpoints := s.checkpoints + (if h.flushpoint then 0 else 1)
    firstStart := some ((s.firstStart.map (earlier · h.startTime)).getD h.startTime)
    lastEnd := some ((s.lastEnd.map (later · h.endTime)).getD h.endTime) }

/-- The summary with one more segment. -/
def addSegment (s : Summary) (segment : Segment) : Summary :=
  let pairs := segment.count.toNat
  { s with
    segments := s.segments + 1
    constants := s.constants + pairs
    types := Dict.update s.types segment.typeId fun seen =>
      let count := seen.getD {}
      ⟨count.segments + 1, count.constants + pairs⟩ }

def addEntry (s : Summary) (e : Entry) : Except Damage Summary := do
  let segments ← e.segmentsInChunk.complete
  pure (segments.foldl addSegment (s.addHeader e.header))

/-- **The summary of a chunk**, if every entry and every segment of it can be read.  Damage
inside an entry is found before damage behind it. -/
def ofChunk (chunk : Bytes) : Except Damage Summary := do
  let reading := Entry.readAll chunk
  let summary ← reading.items.foldlM addEntry ({ bytes := chunk.length } : Summary)
  match reading.damage with
  | none => pure summary
  | some damage => throw damage

end Summary

end TraceRecorder
