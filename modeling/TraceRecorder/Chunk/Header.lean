/-
# Entry headers

An entry of a chunk is a 32-byte header and a payload.  The header holds the size of the whole
entry, the start time and duration of the checkpoint in nanoseconds, the flushpoint word and the
number of segments in the payload.

A flushpoint entry is followed by more entries of the same checkpoint; the entry that closes a
checkpoint is none.  `decode_encode_append` reads a header back that was written, and
`encode_of_decode` writes one again that was read.
-/
import TraceRecorder.Bytes
import TraceRecorder.Chunk.Damage

namespace TraceRecorder

/-- The header of one entry. -/
structure Header where
  /-- Size of the entry in bytes, header included. -/
  size : UInt64
  startTime : UInt64
  duration : UInt64
  /-- The checkpoint goes on in a later entry. -/
  flushpoint : Bool
  segments : UInt32
  deriving DecidableEq, Repr, Inhabited

namespace Header

def length : Nat := 32

/-- The header of an entry with a payload of the given length. -/
def forPayload (payloadLength : Nat) (startTime duration : UInt64) (flushpoint : Bool)
    (segments : UInt32) : Header :=
  ⟨UInt64.ofNat (length + payloadLength), startTime, duration, flushpoint, segments⟩

/-- The length of the payload that the header announces. -/
def payloadLength (h : Header) : Nat := h.size.toNat - length

/-- **The header in bytes**: size, start time and duration as 64-bit words, then the flushpoint
word and the segment count as 32-bit words. -/
def encode (h : Header) : Bytes :=
  Bytes.ofWord64 h.size ++ (Bytes.ofWord64 h.startTime ++ (Bytes.ofWord64 h.duration ++
    (Bytes.ofWord32 (if h.flushpoint then 1 else 0) ++ Bytes.ofWord32 h.segments)))

/-- The flushpoint flag that a word stands for. -/
def flag? (word : UInt32) : Option Bool :=
  if word = 0 then some false else if word = 1 then some true else none

/-- The header at the front of some bytes.  Its fields are not held against each other. -/
def decode (bytes : Bytes) : Except Flaw Header :=
  if !Bytes.has length bytes then .error .headerTruncated
  else match flag? (Bytes.word32 (bytes.drop 24)) with
    | none => .error .flushpointFlag
    | some flushpoint =>
      .ok ⟨Bytes.word64 bytes, Bytes.word64 (bytes.drop 8), Bytes.word64 (bytes.drop 16),
        flushpoint, Bytes.word32 (bytes.drop 28)⟩

/-- **Why an entry with this header cannot start `available` bytes before the chunk's end**,
the first reason of: too small for its header, larger than what is there, a payload that no
segment accounts for. -/
def flaw? (h : Header) (available : Nat) : Option Flaw :=
  if h.size.toNat < length then some .sizeBelowHeader
  else if available < h.size.toNat then some .sizeBeyondChunk
  else if h.segments = 0 ∧ h.payloadLength ≠ 0 then some .payloadWithoutSegments
  else none

/-- The header at the front of some bytes, if a whole entry stands there.  No more of the bytes
than the entry is looked at. -/
def read (bytes : Bytes) : Except Flaw Header :=
  match decode bytes with
  | .error flaw => .error flaw
  | .ok header =>
    match header.flaw? (bytes.take header.size.toNat).length with
    | some flaw => .error flaw
    | none => .ok header

@[simp] theorem length_encode (h : Header) : h.encode.length = length := by
  simp [encode, length]

@[simp] theorem flag?_word (b : Bool) : flag? (if b then 1 else 0) = some b := by
  cases b <;> rfl

/-- A header is read back, whatever follows it. -/
theorem decode_encode_append (h : Header) (rest : Bytes) : decode (h.encode ++ rest) = .ok h := by
  have h8 : (h.encode ++ rest).drop 8 = Bytes.ofWord64 h.startTime ++ (Bytes.ofWord64 h.duration ++
      (Bytes.ofWord32 (if h.flushpoint then 1 else 0) ++ (Bytes.ofWord32 h.segments ++ rest))) := by
    simp only [encode, List.append_assoc]
    exact List.drop_left' (by simp)
  have h16 : (h.encode ++ rest).drop 16 = Bytes.ofWord64 h.duration ++
      (Bytes.ofWord32 (if h.flushpoint then 1 else 0) ++ (Bytes.ofWord32 h.segments ++ rest)) := by
    rw [show 16 = 8 + 8 from rfl, ← List.drop_drop, h8]
    exact List.drop_left' (by simp)
  have h24 : (h.encode ++ rest).drop 24 = Bytes.ofWord32 (if h.flushpoint then 1 else 0) ++
      (Bytes.ofWord32 h.segments ++ rest) := by
    rw [show 24 = 16 + 8 from rfl, ← List.drop_drop, h16]
    exact List.drop_left' (by simp)
  have h28 : (h.encode ++ rest).drop 28 = Bytes.ofWord32 h.segments ++ rest := by
    rw [show 28 = 24 + 4 from rfl, ← List.drop_drop, h24]
    exact List.drop_left' (by simp)
  have hsize : Bytes.word64 (h.encode ++ rest) = h.size := by
    simp only [encode, List.append_assoc, Bytes.word64_ofWord64_append]
  simp [decode, h8, h16, h24, h28, hsize]

theorem flag?_eq_some_iff {word : UInt32} {b : Bool} :
    flag? word = some b ↔ word = if b then 1 else 0 := by
  constructor
  · intro h
    unfold flag? at h
    split at h
    · cases h
      assumption
    · split at h
      · cases h
        assumption
      · cases h
  · rintro rfl
    exact flag?_word b

theorem decode_eq_ok_iff {bytes : Bytes} {h : Header} :
    decode bytes = .ok h ↔ length ≤ bytes.length ∧ h.size = Bytes.word64 bytes ∧
      h.startTime = Bytes.word64 (bytes.drop 8) ∧ h.duration = Bytes.word64 (bytes.drop 16) ∧
      Bytes.word32 (bytes.drop 24) = (if h.flushpoint then 1 else 0) ∧
      h.segments = Bytes.word32 (bytes.drop 28) := by
  rw [← flag?_eq_some_iff, ← Bytes.has_iff]
  unfold decode
  cases Bytes.has length bytes with
  | false => simp
  | true =>
    cases hflag : flag? (Bytes.word32 (bytes.drop 24)) with
    | none => simp
    | some flushpoint =>
      cases h
      simp [eq_comm, and_left_comm]

theorem flaw?_eq_none_iff {h : Header} {available : Nat} :
    h.flaw? available = none ↔ length ≤ h.size.toNat ∧ h.size.toNat ≤ available ∧
      (h.segments = 0 → h.payloadLength = 0) := by
  unfold flaw?
  split
  · simp
    omega
  · split
    · simp
      omega
    · split <;> simp_all

/-- **A whole entry is read** where its header stands without a flaw. -/
theorem read_eq_ok_iff {bytes : Bytes} {h : Header} :
    read bytes = .ok h ↔ decode bytes = .ok h ∧ length ≤ h.size.toNat ∧
      h.size.toNat ≤ bytes.length ∧ (h.segments = 0 → h.payloadLength = 0) := by
  have hiff : h.flaw? (bytes.take h.size.toNat).length = none ↔ length ≤ h.size.toNat ∧
      h.size.toNat ≤ bytes.length ∧ (h.segments = 0 → h.payloadLength = 0) := by
    rw [flaw?_eq_none_iff, List.length_take, Nat.le_min]
    simp
  rw [← hiff]
  unfold read
  cases hd : decode bytes with
  | error flaw => simp
  | ok header =>
    constructor
    · intro hr
      dsimp only at hr
      split at hr
      · cases hr
      · cases hr
        exact ⟨rfl, ‹_›⟩
    · rintro ⟨⟨⟩, hflaw⟩
      simp only [hflaw]

/-- No header is truncated where there are bytes enough for one. -/
theorem read_ne_headerTruncated {bytes : Bytes} (hhas : Bytes.has length bytes = true) :
    read bytes ≠ .error .headerTruncated := by
  have hflaw (h : Header) (available : Nat) : h.flaw? available ≠ some .headerTruncated := by
    unfold flaw?
    split
    · simp
    · split
      · simp
      · split <;> simp
  intro hr
  cases hflag : flag? (Bytes.word32 (bytes.drop 24)) with
  | none => simp [read, decode, hhas, hflag] at hr
  | some flushpoint =>
    simp only [read, decode, hhas, hflag, Bool.not_true, Bool.false_eq_true, if_false] at hr
    split at hr
    · rename_i hsome
      cases hr
      exact hflaw _ _ hsome
    · cases hr

/-- **A header that is decoded stands at the front of the bytes.** -/
theorem encode_of_decode {bytes : Bytes} {h : Header} (hd : decode bytes = .ok h) :
    h.encode = bytes.take length := by
  obtain ⟨hlength, hsize, hstart, hduration, hflag, hsegments⟩ := decode_eq_ok_iff.1 hd
  have hl : 32 ≤ bytes.length := hlength
  have hparts : bytes.take length = bytes.take 8 ++ ((bytes.drop 8).take 8 ++
      ((bytes.drop 16).take 8 ++ ((bytes.drop 24).take 4 ++ (bytes.drop 28).take 4))) := by
    rw [show length = 8 + (8 + (8 + (4 + 4))) from rfl]
    simp only [List.take_add, List.drop_drop]
  rw [hparts, encode, ← hflag, hsize, hstart, hduration, hsegments,
    Bytes.ofWord64_word64 (by omega),
    Bytes.ofWord64_word64 (by rw [List.length_drop]; omega),
    Bytes.ofWord64_word64 (by rw [List.length_drop]; omega),
    Bytes.ofWord32_word32 (by rw [List.length_drop]; omega),
    Bytes.ofWord32_word32 (by rw [List.length_drop]; omega)]

end Header

end TraceRecorder
