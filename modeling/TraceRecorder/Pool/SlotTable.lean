/-
# Slot tables

A slot table is the arena as it lies in memory: two arrays of the same length, for the generations
and the states of the slots, and the stack of the vacant ones.  Ids and the stack have places as
32-bit words.  A new slot gets the length of the table as its place, cut down to such a word.  So
the slot behind the last place there is a word for gets the id of the first one.
-/
import TraceRecorder.Pool.ArenaCalls

namespace TraceRecorder

/-- The id of a buffer, in two words. -/
structure SlotId where
  index : UInt32
  generation : UInt32
  deriving DecidableEq, Repr

/-- The id that an arena knows the buffer by. -/
def SlotId.bufferId (id : SlotId) : BufferId := ⟨id.index.toNat, id.generation⟩

/-- An arena in memory. -/
structure SlotTable where
  generations : Array UInt32 := #[]
  states : Array SlotState := #[]
  /-- The slot that was emptied last comes first. -/
  vacant : List UInt32 := []
  /-- How many slots hold a buffer. -/
  live : Nat := 0
  deriving DecidableEq

namespace SlotTable

/-- **A slot for a new leased buffer**: the one that was emptied last, or a new one if none is
vacant.  The generation of a new one is zero, whichever word its place is cut down to. -/
def insert (t : SlotTable) : SlotId × SlotTable :=
  match t.vacant with
  | index :: vacant =>
    (⟨index, t.generations.getD index.toNat 0⟩,
      { t with
        states := t.states.setIfInBounds index.toNat .leased
        vacant := vacant
        live := t.live + 1 })
  | [] =>
    (⟨UInt32.ofNat t.states.size, 0⟩,
      { t with
        generations := t.generations.push 0
        states := t.states.push .leased
        live := t.live + 1 })

/-- The state of a buffer's slot, if the id is not stale. -/
def state? (t : SlotTable) (id : SlotId) : Option SlotState :=
  if t.generations[id.index.toNat]? = some id.generation then t.states[id.index.toNat]? else none

/-- Why a buffer cannot leave the state `source`, if it cannot. -/
def refusal? (t : SlotTable) (id : SlotId) (source : SlotState) : Option PoolFault :=
  match t.state? id with
  | some state => if state = source then none else some (.misplaced id.bufferId state source)
  | none => some (.stale id.bufferId)

/-- **A buffer moves from one state to another.** -/
def transition (t : SlotTable) (id : SlotId) (source target : SlotState) :
    Except PoolFault SlotTable :=
  match t.refusal? id source with
  | some fault => .error fault
  | none => .ok { t with states := t.states.setIfInBounds id.index.toNat target }

/-- **A buffer is given up**: its slot is vacant and of the next generation, and goes on the
stack. -/
def remove (t : SlotTable) (id : SlotId) (source : SlotState) : Except PoolFault SlotTable := do
  let t ← t.transition id source .vacant
  let index := id.index.toNat
  return { t with
    generations := t.generations.setIfInBounds index (t.generations.getD index 0 + 1)
    vacant := id.index :: t.vacant
    live := t.live - 1 }

/-- Arenas in memory. -/
def keeper : ArenaKeeper SlotTable SlotId where
  insert := insert
  transition := transition
  remove := remove
  live := live
  place id := id.index.toNat

end SlotTable

end TraceRecorder
