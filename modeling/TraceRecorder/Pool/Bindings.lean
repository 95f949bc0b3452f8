/-
# Bindings, one critical section at a time

The pool of the carrier threads has a table that names a cell for each thread, and the cell has the
buffer that is bound to the thread.  The table has a lock, and so has each cell.  Whoever gets at a
bound buffer looks up the cell in the table first and then opens it, in two critical sections, and
others may come in between.

* A writer that is done puts its buffer into the cell of its thread, and has what was there on its
  hands (`Act.find`, `Act.store`).
* A writer that begins takes the buffer out of the cell (`Act.reach`, `Act.take`).
* A thread that ends is struck off the table, and then the buffer is taken out of the cell
  (`Act.unbind`, `Act.take`).

`Phase` is how far a client is, `Move` is one critical section of one client, and `Reachable` are
the systems that any number of clients come to in any order of them.  Drains open the cells as well,
but not while anyone is in between: such a client has a pin, and a drain waits for pins.
-/
import TraceRecorder.Pool.Space

namespace TraceRecorder

namespace Bindings

/-! ## 1. Table, cells and clients -/

/-- The table of cells, and the cells. -/
structure Store where
  table : Dict ThreadId Nat := []
  cells : List (Option Buffer) := []
  deriving DecidableEq

namespace Store

def contents (s : Store) (cell : Nat) : Option Buffer := s.cells[cell]?.join

def put (s : Store) (cell : Nat) (b : Option Buffer) : Store :=
  { s with cells := s.cells.set cell b }

/-- The cell of a thread, also of one that is about to get it. -/
def cellOf (s : Store) (thread : ThreadId) : Nat :=
  (Dict.find? s.table thread).getD s.cells.length

/-- The store once the cell of a thread has been looked up: a thread that had none has an empty one
now. -/
def touch (s : Store) (thread : ThreadId) : Store :=
  match Dict.find? s.table thread with
  | some _ => s
  | none =>
    { table := Dict.insert s.table thread s.cells.length, cells := s.cells ++ [none] }

def strike (s : Store) (thread : ThreadId) : Store :=
  { s with table := Dict.erase s.table thread }

/-- **The bindings that a pool has**: each thread with what is in its cell. -/
def bindings (s : Store) : Dict ThreadId (Option Buffer) :=
  s.table.map fun entry => (entry.1, s.contents entry.2)

end Store

/-- How far a client is. -/
inductive Phase where
  | idle
  /-- It has a leased buffer. -/
  | holding (b : Buffer)
  /-- It has found a cell and is about to put its buffer there. -/
  | storing (cell : Nat) (b : Buffer)
  /-- It has found a cell and is about to take out what is there. -/
  | taking (cell : Nat)
  deriving DecidableEq

/-- A client has what it found in a cell on its hands. -/
def Phase.having : Option Buffer → Phase
  | none => idle
  | some b => holding b

/-! ## 2. Critical sections -/

/-- What a client does in a critical section.  Leases and hand-offs are those of the pool. -/
inductive Act where
  | lease (b : Buffer)
  | handOff (b : Buffer)
  | find (thread : ThreadId)
  | store (cell : Nat) (b : Buffer)
  | reach (thread : ThreadId)
  | unbind (thread : ThreadId)
  | take (cell : Nat)
  deriving DecidableEq

/-- One critical section of one client: the store and its phase before, what it does, and both
after. -/
inductive Move : Store → Phase → Act → Store → Phase → Prop where
  | lease (s : Store) (b : Buffer) : Move s .idle (.lease b) s (.holding b)
  | handOff (s : Store) (b : Buffer) : Move s (.holding b) (.handOff b) s .idle
  /-- A writer is done and looks up the cell of its thread. -/
  | find (s : Store) (b : Buffer) (thread : ThreadId) :
      Move s (.holding b) (.find thread) (s.touch thread) (.storing (s.cellOf thread) b)
  /-- **Its buffer takes the place of what is there.** -/
  | store (s : Store) (b : Buffer) (cell : Nat) :
      Move s (.storing cell b) (.store cell b) (s.put cell (some b)) (.having (s.contents cell))
  /-- A writer begins and looks up the cell of its thread. -/
  | reach (s : Store) (thread : ThreadId) :
      Move s .idle (.reach thread) (s.touch thread) (.taking (s.cellOf thread))
  /-- **A thread ends**, and its cell is found no more. -/
  | unbind (s : Store) (thread : ThreadId) (cell : Nat)
      (found : Dict.find? s.table thread = some cell) :
      Move s .idle (.unbind thread) (s.strike thread) (.taking cell)
  | unbound (s : Store) (thread : ThreadId) (absent : Dict.find? s.table thread = none) :
      Move s .idle (.unbind thread) s .idle
  | take (s : Store) (cell : Nat) :
      Move s (.taking cell) (.take cell) (s.put cell none) (.having (s.contents cell))

/-! ## 3. Systems of clients -/

/-- The store and the phases of all clients. -/
structure System where
  store : Store := {}
  clients : List Phase
  deriving DecidableEq

/-- **One client of a system goes through one critical section.** -/
inductive Step : System → Act → System → Prop where
  | move {s s' : Store} {p p' : Phase} {a : Act} (before after : List Phase)
      (m : Move s p a s' p') : Step ⟨s, before ++ p :: after⟩ a ⟨s', before ++ p' :: after⟩

/-- **The systems that come about**, from clients that are all idle, by any critical sections that
are allowed, in any order. -/
inductive Reachable (allowed : System → Act → Prop) : System → Prop where
  | start (clients : Nat) : Reachable allowed { clients := List.replicate clients .idle }
  | step {s s' : System} {a : Act} (r : Reachable allowed s) (m : Step s a s')
      (allows : allowed s a) : Reachable allowed s'

namespace System

/-- **Somebody still gets at a cell**: the table names it, or a client is about to empty it. -/
def Reached (s : System) (cell : Nat) : Prop :=
  (∃ thread, Dict.find? s.store.table thread = some cell) ∨ Phase.taking cell ∈ s.clients

/-- **A buffer is lost**: it is in a cell that nobody gets at any more. -/
def Lost (s : System) (cell : Nat) (b : Buffer) : Prop :=
  s.store.contents cell = some b ∧ ¬ s.Reached cell

/-- **A thread ends only when its writers are done**: no buffer is on its way into the cell that is
struck off the table. -/
def Settled (s : System) (a : Act) : Prop :=
  ∀ thread cell b, a = .unbind thread → Dict.find? s.store.table thread = some cell →
    Phase.storing cell b ∉ s.clients

end System

end Bindings

end TraceRecorder
