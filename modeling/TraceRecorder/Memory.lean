/-
# Memory

A request for memory can fail in two ways.  A size beyond all addresses is found out by whoever
asks, and ends the thread that asks.  Any other size is up to the machine; if the machine does not
grant it, that ends the program.

`Memory.refusal?` tells the two apart.  What a machine grants is not known beforehand, but for one
thing: whatever a 32-bit word can count is there (`Memory.modest`).
-/
import TraceRecorder.Report

namespace TraceRecorder

/-- Why memory is not to be had. -/
inductive MemoryFault where
  /-- No address would be left behind so many bytes. -/
  | unaddressable (size : Nat)
  /-- The machine does not grant so many bytes. -/
  | lacking (size : Nat)
  deriving DecidableEq, Repr

namespace MemoryFault

/-- The outward form of a refused request. -/
def report : MemoryFault → Report
  | unaddressable _ => { kind := .internal, message := some "capacity overflow" }
  | lacking size =>
    { kind := .internal
      message := some ("memory allocation of " ++ toString size ++ " bytes failed") }

/-- **The program does not outlive the request.** -/
def endsProgram : MemoryFault → Bool
  | unaddressable _ => false
  | lacking _ => true

end MemoryFault

/-- **The memory of a machine**, by the requests that it grants. -/
structure Memory where
  grants : Nat → Bool
  /-- Whatever a 32-bit word can count is there. -/
  modest : ∀ size < UInt32.size, grants size = true

namespace Memory

def unbounded : Memory := ⟨fun _ => true, fun _ _ => rfl⟩

/-- A machine with so many bytes more than a 32-bit word can count. -/
def beyondWords (more : Nat) : Memory where
  grants size := size ≤ UInt32.size + more
  modest _ h := decide_eq_true (Nat.le_trans (Nat.le_of_lt h) (Nat.le_add_right ..))

/-- The most bytes that can stand in one piece: offsets into it are signed 64-bit numbers. -/
def addressable : Nat := UInt64.size / 2 - 1

/-- **Why a request for so many bytes fails**, if it does. -/
def refusal? (grants : Nat → Bool) (size : Nat) : Option MemoryFault :=
  if addressable < size then some (.unaddressable size)
  else if grants size then none
  else some (.lacking size)

end Memory

end TraceRecorder
