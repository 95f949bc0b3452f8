/-
# Calls on an arena

A pool asks its arena for a slot, moves the slot's buffer from one state to another, and gives the
slot back.  `ArenaKeeper` is a way to answer such calls, and `ArenaUse` is an arena under any row of
them, together with what its ids were: which ones were issued, which ones were removed, and the most
buffers that there were at once.

A call that is refused changes nothing.  There are two keepers: `Arena.keeper` is the arena of a
pool, and `SlotTable.keeper` the same arena in memory, where places are words.
-/
import TraceRecorder.Pool.Arena

namespace TraceRecorder

/-- A call on an arena whose ids are of the type `ι`. -/
inductive ArenaCall (ι : Type) where
  | insert
  | transition (id : ι) (source target : SlotState)
  | remove (id : ι) (source : SlotState)
  deriving DecidableEq, Repr

/-- What a call answers. -/
inductive ArenaAnswer (ι : Type) where
  /-- The id of a new buffer. -/
  | issued (id : ι)
  | done
  | refused (fault : PoolFault)
  deriving DecidableEq, Repr

section

variable {ι κ : Type}

/-- **The call names states that a buffer can be in**: a slot becomes vacant by a removal and in no
other way. -/
def ArenaCall.Proper : ArenaCall ι → Prop
  | insert => True
  | transition _ source target => source ≠ .vacant ∧ target ≠ .vacant
  | remove _ source => source ≠ .vacant

/-- The call with another name for the buffer. -/
def ArenaCall.map (f : ι → κ) : ArenaCall ι → ArenaCall κ
  | insert => insert
  | transition id source target => transition (f id) source target
  | remove id source => remove (f id) source

/-- The answer with another name for the buffer. -/
def ArenaAnswer.map (f : ι → κ) : ArenaAnswer ι → ArenaAnswer κ
  | issued id => issued (f id)
  | done => done
  | refused fault => refused fault

end

/-- **A way to keep an arena.** -/
structure ArenaKeeper (α ι : Type) where
  insert : α → ι × α
  transition : α → ι → SlotState → SlotState → Except PoolFault α
  remove : α → ι → SlotState → Except PoolFault α
  /-- How many slots hold a buffer. -/
  live : α → Nat
  /-- The place of the slot that an id names. -/
  place : ι → Nat

/-- **An arena in use.** -/
structure ArenaUse (α ι : Type) where
  arena : α
  /-- The ids that were issued, the latest first. -/
  issued : List ι := []
  /-- The ids that were removed, the latest first. -/
  removed : List ι := []
  /-- The most buffers that there were at once. -/
  peak : Nat := 0
  deriving DecidableEq

namespace ArenaKeeper

variable {α ι : Type} (k : ArenaKeeper α ι)

/-- One call. -/
def call (u : ArenaUse α ι) : ArenaCall ι → ArenaAnswer ι × ArenaUse α ι
  | .insert =>
    let (id, arena) := k.insert u.arena
    (.issued id,
      { u with arena := arena, issued := id :: u.issued, peak := max u.peak (k.live arena) })
  | .transition id source target =>
    match k.transition u.arena id source target with
    | .error fault => (.refused fault, u)
    | .ok arena => (.done, { u with arena := arena })
  | .remove id source =>
    match k.remove u.arena id source with
    | .error fault => (.refused fault, u)
    | .ok arena => (.done, { u with arena := arena, removed := id :: u.removed })

/-- **The arena after some calls.** -/
def callAll (u : ArenaUse α ι) (calls : List (ArenaCall ι)) : ArenaUse α ι :=
  calls.foldl (fun u c => (k.call u c).2) u

/-- **No slot was emptied as often as there are generations.** -/
def Lasting (u : ArenaUse α ι) : Prop :=
  ∀ place, u.removed.countP (fun id => k.place id == place) < UInt32.size

end ArenaKeeper

/-- Arenas with a place for any number of slots. -/
def Arena.keeper : ArenaKeeper Arena BufferId where
  insert := insert
  transition := transition
  remove := remove
  live := live
  place := BufferId.index

end TraceRecorder
