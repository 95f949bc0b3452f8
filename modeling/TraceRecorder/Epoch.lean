/-
# Epochs and the drain barrier

Buffers are tagged with one of two generations.  Writers work in the current one; a drain that
retires it first raises a barrier, which is only possible while no writer is active there, then
flips the epoch and lowers the barrier.

`EpochController` is the state of this protocol.  `pin?` and `raise?` refuse where a caller would
have to wait; `enter` and `raise` are the same moves for callers that have waited.  Only one
barrier is up at a time, and it flips the epoch at most once.
-/
namespace TraceRecorder

/-- One of the two generations. -/
inductive Epoch where
  | zero
  | one
  deriving DecidableEq, Repr, Inhabited

namespace Epoch

def value : Epoch → Nat
  | zero => 0
  | one => 1

def other : Epoch → Epoch
  | zero => one
  | one => zero

@[simp] theorem other_other (e : Epoch) : e.other.other = e := by cases e <;> rfl

end Epoch

/-- A count for each generation. -/
structure WriterCounts where
  zero : Nat := 0
  one : Nat := 0
  deriving DecidableEq, Repr

namespace WriterCounts

def of (n : WriterCounts) : Epoch → Nat
  | .zero => n.zero
  | .one => n.one

def change (n : WriterCounts) (f : Nat → Nat) : Epoch → WriterCounts
  | .zero => { n with zero := f n.zero }
  | .one => { n with one := f n.one }

end WriterCounts

/-- A barrier that is up: the generation that it found, and whether it has flipped the epoch. -/
structure Barrier where
  retiring : Epoch
  flipped : Bool := false
  deriving DecidableEq, Repr

/-- The state of the epoch protocol. -/
structure EpochController where
  current : Epoch := .zero
  /-- The writers that are active in each generation. -/
  writers : WriterCounts := {}
  barrier : Option Barrier := none
  /-- How often the epoch has been flipped. -/
  shifts : Nat := 0
  deriving DecidableEq, Repr

namespace EpochController

def previous (c : EpochController) : Epoch := c.current.other

/-- **The generation that a drain is retiring**: the one that the barrier found, until it
flips. -/
def draining (c : EpochController) : Option Epoch :=
  c.barrier.bind fun b => if b.flipped then none else some b.retiring

def admitsWriter (c : EpochController) : Bool := c.barrier.isNone

def admitsBarrier (c : EpochController) : Bool :=
  c.barrier.isNone && c.writers.of c.current == 0

/-- A writer becomes active in the current generation. -/
def enter (c : EpochController) : EpochController :=
  { c with writers := c.writers.change (· + 1) c.current }

def leave (c : EpochController) (e : Epoch) : EpochController :=
  { c with writers := c.writers.change (· - 1) e }

def raise (c : EpochController) : EpochController :=
  { c with barrier := some { retiring := c.current } }

/-- **The epoch flips**, if a barrier is up that has not flipped it yet. -/
def flip (c : EpochController) : EpochController :=
  match c.barrier with
  | some { retiring := e, flipped := false } =>
    { c with
      current := e.other
      barrier := some { retiring := e, flipped := true }
      shifts := c.shifts + 1 }
  | _ => c

def lower (c : EpochController) : EpochController := { c with barrier := none }

theorem leave_enter (c : EpochController) : c.enter.leave c.current = c := by
  obtain ⟨_ | _, ⟨m, n⟩, barrier, shifts⟩ := c <;> rfl

theorem enter_leave (c : EpochController) (h : 0 < c.writers.of c.current) :
    (c.leave c.current).enter = c := by
  obtain ⟨_ | _, ⟨m, n⟩, barrier, shifts⟩ := c
  · have counted : m - 1 + 1 = m := Nat.sub_add_cancel h
    simp only [enter, leave, WriterCounts.change, counted]
  · have counted : n - 1 + 1 = n := Nat.sub_add_cancel h
    simp only [enter, leave, WriterCounts.change, counted]

theorem lower_raise {c : EpochController} (h : c.barrier = none) : c.raise.lower = c := by
  obtain ⟨current, writers, barrier, shifts⟩ := c
  cases h
  rfl

/-- The protocol after a whole shift: the other generation is current. -/
def shifted (c : EpochController) : EpochController :=
  { c with current := c.current.other, shifts := c.shifts + 1 }

theorem lower_flip_raise {c : EpochController} (h : c.barrier = none) :
    c.raise.flip.lower = c.shifted := by
  obtain ⟨current, writers, barrier, shifts⟩ := c
  cases h
  rfl

/-- A writer's pin on the current generation, unless a barrier is up. -/
def pin? (c : EpochController) : Option (Epoch × EpochController) :=
  if c.admitsWriter then some (c.current, c.enter) else none

/-- A barrier, unless one is up or a writer is active in the current generation. -/
def raise? (c : EpochController) : Option EpochController :=
  if c.admitsBarrier then some c.raise else none

end EpochController

end TraceRecorder
