/-
# Relations

A relation is a set of constants of one type: key-value pairs, in the order in which they were
added.  Encoded it is a segment: type, pair count and body length in a 16-byte header, then the
pairs, each a key, a value length and the value.

`Segment` is what a reader finds: the same header fields, as announced, and the body as bytes.
The two reading functions walk announced numbers of segments and pairs and stop at the first
that is not there in full.
-/
import TraceRecorder.Bytes
import TraceRecorder.Chunk.Damage

namespace TraceRecorder

/-! ## 1. Constant types -/

namespace ConstantType

/-- Threads. -/
def thread : UInt64 := 1
/-- Thread groups. -/
def threadGroup : UInt64 := 2
/-- States of threads. -/
def threadState : UInt64 := 3
/-- Classes. -/
def classes : UInt64 := 4
/-- Symbols. -/
def symbol : UInt64 := 5
def stackFrame : UInt64 := 6
/-- The first type that is left to the caller. -/
def firstFree : UInt64 := 64

/-- **The name of a type in reports**: its own for the types that the format knows, and its
number otherwise. -/
def name (typeId : UInt64) : String :=
  if typeId = thread then "thread"
  else if typeId = threadGroup then "thread_group"
  else if typeId = threadState then "thread_state"
  else if typeId = classes then "class"
  else if typeId = symbol then "symbol"
  else if typeId = stackFrame then "stack_frame"
  else "type_" ++ toString typeId.toNat

end ConstantType

/-! ## 2. Writing -/

abbrev Pair := UInt64 × Bytes

/-- Constants of one type. -/
structure Relation where
  typeId : UInt64
  pairs : List Pair := []
  deriving DecidableEq, Repr

namespace Relation

def add (r : Relation) (key : UInt64) (value : Bytes) : Relation :=
  { r with pairs := r.pairs ++ [(key, value)] }

def count (r : Relation) : Nat := r.pairs.length

def isEmpty (r : Relation) : Bool := r.pairs.isEmpty

/-- One pair in bytes: key, value length, value. -/
def encodePair (pair : Pair) : Bytes :=
  Bytes.ofWord64 pair.1 ++ (Bytes.digits 4 pair.2.length ++ pair.2)

/-- All pairs in bytes.  A pair that is alone need not be copied. -/
def body (r : Relation) : Bytes :=
  match r.pairs with
  | [pair] => encodePair pair
  | pairs => (pairs.map encodePair).flatten

theorem body_eq (r : Relation) : r.body = (r.pairs.map encodePair).flatten := by
  unfold body
  split <;> simp [*]

/-- **The relation as a segment**: type, pair count and body length, then the body. -/
def encode (r : Relation) : Bytes :=
  Bytes.ofWord64 r.typeId ++
    (Bytes.digits 4 r.count ++ (Bytes.digits 4 r.body.length ++ r.body))

end Relation

/-! ## 3. Reading -/

/-- A segment as a reader finds it. -/
structure Segment where
  typeId : UInt64
  /-- The number of pairs that the header announces. -/
  count : UInt32
  body : Bytes
  deriving DecidableEq, Repr

namespace Segment

def headerLength : Nat := 16

/-- The length of what precedes the value in a pair. -/
def pairHeaderLength : Nat := 12

/-- **The first `count` pairs of a body** that starts at `offset`. -/
def readPairs : (count offset : Nat) → Bytes → Reading Pair
  | 0, _, _ => .nothing
  | count + 1, offset, body =>
    if !Bytes.has pairHeaderLength body then .stopped ⟨.pairTruncated, some offset⟩
    else
      let valueLength := (Bytes.word32 (body.drop 8)).toNat
      let rest := body.drop pairHeaderLength
      if !Bytes.has valueLength rest then .stopped ⟨.valueBeyondBody, some offset⟩
      else
        .cons (Bytes.word64 body, rest.take valueLength)
          (readPairs count (offset + pairHeaderLength + valueLength) (rest.drop valueLength))

/-- The pairs of a segment, with offsets in its body. -/
def pairs (s : Segment) : Reading Pair := readPairs s.count.toNat 0 s.body

/-- **The first `count` segments of a payload** that starts at `offset`. -/
def readAll : (count offset : Nat) → Bytes → Reading Segment
  | 0, _, _ => .nothing
  | count + 1, offset, payload =>
    if !Bytes.has headerLength payload then .stopped ⟨.segmentHeaderTruncated, some offset⟩
    else
      let bodyLength := (Bytes.word32 (payload.drop 12)).toNat
      let rest := payload.drop headerLength
      if !Bytes.has bodyLength rest then .stopped ⟨.segmentBodyBeyondPayload, some offset⟩
      else
        .cons ⟨Bytes.word64 payload, Bytes.word32 (payload.drop 8), rest.take bodyLength⟩
          (readAll count (offset + headerLength + bodyLength) (rest.drop bodyLength))

end Segment

end TraceRecorder
