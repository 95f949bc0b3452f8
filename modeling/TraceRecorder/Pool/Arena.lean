/-
# The arena of buffer slots

Every buffer of a pool stands for a slot of the pool's arena, and the slot says where the buffer
is held: free, leased or full.  Slots are used again; each time one is emptied its generation
goes up, so that an id of an earlier use no longer names it.

A move of a slot names the state that it must be in.  A move that fails changes nothing.

Places are numbers here, as many as it takes.  In memory they are words (`SlotTable`).
-/
import TraceRecorder.Memory
import TraceRecorder.Pool.Buffer
import TraceRecorder.Row

namespace TraceRecorder

/-- Where the buffer of a slot is held. -/
inductive SlotState where
  /-- No buffer stands here. -/
  | vacant
  | free
  /-- Held by a writer, a thread binding or a drain. -/
  | leased
  | full
  deriving DecidableEq, Repr

/-- The name of a state in messages. -/
def SlotState.name : SlotState → String
  | vacant => "Vacant"
  | free => "Free"
  | leased => "Leased"
  | full => "Full"

/-- Why a pool refuses. -/
inductive PoolFault where
  /-- No buffer of this pool may be so large. -/
  | oversized (kind : BufferKind) (size : Nat)
  /-- All buffers that the pool may have are in use. -/
  | limitReached (kind : BufferKind) (limit : Nat)
  /-- The buffer is not held where it should be. -/
  | misplaced (id : BufferId) (found expected : SlotState)
  /-- The id names no buffer, or one that is gone. -/
  | stale (id : BufferId)
  /-- There is no memory for the buffer. -/
  | memory (fault : MemoryFault)
  deriving DecidableEq, Repr

/-- **Running out of buffers is exhaustion**; a buffer in the wrong place is a defect, and memory is
not for the pool to judge. -/
def PoolFault.report : PoolFault → Report
  | oversized kind size =>
    { kind := .exhausted
      message := some (kind.name ++ " request of " ++ toString size
        ++ " bytes exceeds max buffer size") }
  | limitReached kind limit =>
    { kind := .exhausted
      message := some (kind.name ++ " space reached its limit of " ++ toString limit
        ++ " buffers") }
  | misplaced id found expected =>
    { kind := .internal
      message := some ("buffer " ++ id.display ++ " is " ++ found.name ++ ", expected "
        ++ expected.name) }
  | stale id => { kind := .internal, message := some ("stale buffer id " ++ id.display) }
  | memory fault => fault.report

/-- A slot of the arena. -/
structure Slot where
  /-- How often the slot has been emptied, modulo the range of a 32-bit word. -/
  generation : UInt32
  state : SlotState
  deriving DecidableEq, Repr

/-- The slots, and the stack of those that are vacant. -/
structure Arena where
  slots : Row Slot := .empty
  /-- How many slots there are. -/
  size : Nat := 0
  /-- How many of them hold a buffer. -/
  live : Nat := 0
  /-- The slot that was emptied last comes first. -/
  vacant : List Nat := []
  deriving DecidableEq

namespace Arena

/-- An arena of `count` free buffers. -/
def ofFree (count : Nat) : Arena where
  slots := (List.range count).foldl (fun slots index => slots.insert index ⟨0, .free⟩) .empty
  size := count
  live := count

/-- The arena with a slot as it is from now on. -/
def setSlot (a : Arena) (index : Nat) (slot : Slot) : Arena :=
  { a with slots := a.slots.insert index slot }

/-- **A slot for a new leased buffer**: the one that was emptied last, or a new one if none is
vacant. -/
def insert (a : Arena) : BufferId × Arena :=
  match a.vacant with
  | index :: vacant =>
    let generation := ((a.slots.find? index).map Slot.generation).getD 0
    (⟨index, generation⟩,
      { a.setSlot index ⟨generation, .leased⟩ with live := a.live + 1, vacant := vacant })
  | [] =>
    (⟨a.size, 0⟩,
      { a.setSlot a.size ⟨0, .leased⟩ with size := a.size + 1, live := a.live + 1 })

/-- The state of a buffer's slot, if the id is not stale. -/
def state? (a : Arena) (id : BufferId) : Option SlotState :=
  (a.slots.find? id.index).bind fun slot =>
    if slot.generation = id.generation then some slot.state else none

/-- Why a buffer cannot leave the state `source`, if it cannot. -/
def refusal? (a : Arena) (id : BufferId) (source : SlotState) : Option PoolFault :=
  match a.state? id with
  | some state => if state = source then none else some (.misplaced id state source)
  | none => some (.stale id)

/-- **A buffer moves from one state to another.** -/
def transition (a : Arena) (id : BufferId) (source target : SlotState) :
    Except PoolFault Arena :=
  match a.refusal? id source with
  | some fault => .error fault
  | none => .ok (a.setSlot id.index ⟨id.generation, target⟩)

/-- **A buffer is given up**: its slot is vacant and the id stale from now on. -/
def remove (a : Arena) (id : BufferId) (source : SlotState) : Except PoolFault Arena :=
  match a.refusal? id source with
  | some fault => .error fault
  | none => .ok
    { a.setSlot id.index ⟨id.generation + 1, .vacant⟩ with
      live := a.live - 1
      vacant := id.index :: a.vacant }

end Arena

end TraceRecorder
