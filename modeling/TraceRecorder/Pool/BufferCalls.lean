/-
# Calls on buffers

Buffers that are in use are asked to take more bytes, to commit them or to give them up, and to hand
pending bytes on to another one.  `BufferKeeper` is a way to keep a buffer: its answer to each
request, and to a request of two buffers.  `BufferKeeper.callAll` makes a row of calls on a row of
buffers, and there is no answer if one of them cannot be made.

There are three keepers.  `Slab.keeper` keeps buffers in memory, `Buffer.keeper` on tapes, and
`BufferContent.keeper` knows nothing but two byte lists.
-/
import TraceRecorder.Pool.Slab

namespace TraceRecorder

/-! ## 1. Calls -/

/-- What can be asked of a buffer. -/
inductive BufferRequest where
  | append (bytes : Bytes)
  | patch (start : UInt64) (bytes : Bytes)
  | commit (count : UInt64)
  | commitAll
  | rewind
  | lease (epoch : Epoch) (owner : Owner)
  deriving DecidableEq, Repr

/-- A call on a row of buffers. -/
inductive BufferCall where
  | request (index : Nat) (request : BufferRequest)
  /-- The pending bytes of the second buffer go to the first one. -/
  | carry (index other : Nat)
  deriving DecidableEq, Repr

/-- **A way to keep a buffer.**  The first part of an answer says whether the bytes fit. -/
structure BufferKeeper (β : Type) where
  serve : β → BufferRequest → Option (Bool × β)
  /-- One buffer takes the pending bytes of another one. -/
  carry : β → β → Option (Bool × β × β)

namespace BufferKeeper

variable {β : Type} (k : BufferKeeper β)

/-- One call. -/
def call (row : List β) : BufferCall → Option (Bool × List β)
  | .request index request => do
    let (done, b) ← k.serve (← row[index]?) request
    return (done, row.set index b)
  | .carry index other =>
    if index = other then none
    else do
      let (done, b, c) ← k.carry (← row[index]?) (← row[other]?)
      return (done, (row.set index b).set other c)

/-- **Some calls**, one after the other. -/
def callAll (row : List β) : List BufferCall → Option (List Bool × List β)
  | [] => some ([], row)
  | c :: calls => do
    let (done, row) ← k.call row c
    let (answers, row) ← callAll row calls
    return (done :: answers, row)

end BufferKeeper

/-! ## 2. Keepers -/

/-- Buffers in memory. -/
def Slab.keeper : BufferKeeper Slab where
  serve s
    | .append bytes => s.append? bytes
    | .patch start bytes => (s.patch? start bytes).map fun s => (true, s)
    | .commit count => some (true, s.commit count)
    | .commitAll => some (true, s.commitAll)
    | .rewind => some (true, s.rewind)
    | .lease epoch owner => some (true, s.lease epoch owner)
  carry s other := s.carry? other

/-- **What a buffer shows**: how much fits into it, and two byte lists. -/
structure BufferContent where
  capacity : Nat
  committed : Bytes
  pending : Bytes
  deriving DecidableEq, Repr

/-- What a buffer in memory shows, if it can be read. -/
def Slab.content? (s : Slab) : Option BufferContent := do
  return ⟨s.capacity.toNat, (← s.committed?).bytes, (← s.pending?).bytes⟩

def Buffer.content (b : Buffer) : BufferContent := ⟨b.capacity, b.committed.bytes, b.pending.bytes⟩

namespace BufferContent

def room (c : BufferContent) : Nat := c.capacity - (c.committed.length + c.pending.length)

def Covers (c : BufferContent) (start length : Nat) : Prop :=
  c.committed.length ≤ start ∧ start + length ≤ c.committed.length + c.pending.length

instance (c : BufferContent) (start length : Nat) : Decidable (c.Covers start length) :=
  inferInstanceAs (Decidable (_ ∧ _))

/-- **What requests do to two byte lists.**  No byte may be replaced that is not pending. -/
def keeper : BufferKeeper BufferContent where
  serve c
    | .append bytes =>
      some (if bytes.length ≤ c.room then (true, { c with pending := c.pending ++ bytes })
        else (false, c))
    | .patch start bytes =>
      if c.Covers start.toNat bytes.length then
        let before := start.toNat - c.committed.length
        some (true, { c with
          pending := c.pending.take before ++ (bytes ++ c.pending.drop (before + bytes.length)) })
      else none
    | .commit count =>
      let count := min count.toNat c.pending.length
      some (true, { c with
        committed := c.committed ++ c.pending.take count, pending := c.pending.drop count })
    | .commitAll => some (true, { c with committed := c.committed ++ c.pending, pending := [] })
    | .rewind => some (true, { c with pending := [] })
    | .lease _ _ => some (true, { c with committed := [], pending := [] })
  carry c other :=
    some (if other.pending.length ≤ c.room then
      (true, { c with pending := c.pending ++ other.pending }, { other with pending := [] })
    else (false, c, other))

end BufferContent

/-- Buffers on tapes. -/
def Buffer.keeper : BufferKeeper Buffer where
  serve b
    | .append bytes =>
      some (match b.append? bytes with
        | some b => (true, b)
        | none => (false, b))
    | .patch start bytes =>
      if b.content.Covers start.toNat bytes.length then some (true, b.patch start.toNat bytes)
      else none
    | .commit count => some (true, b.commit count.toNat)
    | .commitAll => some (true, b.commitAll)
    | .rewind => some (true, b.rewind)
    | .lease epoch owner => some (true, Buffer.reinitialize b epoch owner)
  carry b other :=
    some (match b.carry? other with
      | some (b, other) => (true, b, other)
      | none => (false, b, other))

end TraceRecorder
