/-
# Entries

A chunk is a row of entries, and an entry a header and a payload of segments.  `Entry.readAll`
cuts a chunk at the sizes that the headers give and stops at the first place where no whole
entry stands; `Entry.frame` is the way back for one entry.

Offsets are measured from the start of the chunk.  Damage inside a payload is found by reading
its segments, with offsets in the payload, and `Entry.segmentsInChunk` moves those to the chunk.
-/
import TraceRecorder.Chunk.Header
import TraceRecorder.Chunk.Relation

namespace TraceRecorder

/-- An entry of a chunk. -/
structure Entry where
  /-- Where the entry starts in its chunk. -/
  offset : Nat
  header : Header
  payload : Bytes
  deriving DecidableEq, Repr

namespace Entry

/-- **The segments in bytes framed as one entry** that closes a checkpoint. -/
def frame (segments : List Bytes) (startTime duration : UInt64) : Bytes :=
  let payload := segments.flatten
  (Header.forPayload payload.length startTime duration false
    (UInt32.ofNat segments.length)).encode ++ payload

/-- The segments of an entry, with offsets in its payload. -/
def segments (e : Entry) : Reading Segment :=
  Segment.readAll e.header.segments.toNat 0 e.payload

/-- Damage in a payload seen from the chunk. -/
def rebase (e : Entry) (d : Damage) : Damage :=
  { d with offset := some (e.offset + Header.length + d.offset.getD 0) }

/-- The segments of an entry, with damage placed in the chunk. -/
def segmentsInChunk (e : Entry) : Reading Segment :=
  { e.segments with damage := e.segments.damage.map e.rebase }

theorem size_of_read {bytes : Bytes} {h : Header} (hr : Header.read bytes = .ok h) :
    Header.length ≤ h.size.toNat ∧ h.size.toNat ≤ bytes.length := by
  obtain ⟨-, hleast, hmost, -⟩ := Header.read_eq_ok_iff.1 hr
  exact ⟨hleast, hmost⟩

/-- **The entries of the bytes from `offset` on**, as far as whole entries stand there. -/
def readFrom (offset : Nat) (bytes : Bytes) : Reading Entry :=
  if bytes.isEmpty then .nothing
  else
    match _whole : Header.read bytes with
    | .error flaw => .stopped ⟨flaw, some offset⟩
    | .ok header =>
      let size := header.size.toNat
      .cons ⟨offset, header, (bytes.take size).drop Header.length⟩
        (readFrom (offset + size) (bytes.drop size))
  termination_by bytes.length
  decreasing_by
    have hs := size_of_read _whole
    have hl : Header.length = 32 := rfl
    simp only [List.length_drop]
    omega

theorem readFrom_nil (offset : Nat) : readFrom offset [] = .nothing := by
  rw [readFrom, if_pos List.isEmpty_nil]

/-- A whole entry is read first. -/
theorem readFrom_of_ok {bytes : Bytes} {header : Header} (h : Header.read bytes = .ok header)
    (offset : Nat) :
    readFrom offset bytes = .cons
      ⟨offset, header, (bytes.take header.size.toNat).drop Header.length⟩
      (readFrom (offset + header.size.toNat) (bytes.drop header.size.toNat)) := by
  have hne : ¬ bytes.isEmpty = true := by
    intro he
    obtain rfl : bytes = [] := by simpa using he
    cases h
  rw [readFrom, if_neg hne]
  split
  · rename_i h'
    rw [h] at h'
    cases h'
  · rename_i h'
    rw [h] at h'
    cases h'
    rfl

theorem readFrom_of_error {bytes : Bytes} {flaw : Flaw} (hne : bytes ≠ [])
    (h : Header.read bytes = .error flaw) (offset : Nat) :
    readFrom offset bytes = .stopped ⟨flaw, some offset⟩ := by
  rw [readFrom, if_neg (by simpa using hne)]
  split
  · rename_i h'
    rw [h] at h'
    cases h'
    rfl
  · rename_i h'
    rw [h] at h'
    cases h'

def readAll (chunk : Bytes) : Reading Entry := readFrom 0 chunk

end Entry

end TraceRecorder
