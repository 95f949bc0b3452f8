/-
# The handshake of writers and drains

`EpochController` moves in whole operations.  Here each of them is taken apart into the steps that
threads make one at a time, each of which reads or writes one shared word.

* A writer counts itself in and **then looks again**, first at the barrier, then at the epoch.  If
  either has changed it counts itself out and starts over.
* A drain raises the barrier and **then waits for the count**: once it has seen zero, a writer that
  comes later sees the barrier.

`Phase` is how far a client is, `Move` is one step of one client, and `Reachable` are the systems
that any number of clients come to in any order of their steps.  A thread with several pins counts
as several clients.
-/
import TraceRecorder.Epoch

namespace TraceRecorder

namespace Handshake

/-! ## 1. Shared words and clients -/

/-- The words that all clients share. -/
structure Words where
  current : Epoch := .zero
  /-- The writers that have counted themselves in, by generation. -/
  writers : WriterCounts := {}
  barrier : Bool := false
  /-- The generation that a drain has announced. -/
  draining : Option Epoch := none
  shifts : Nat := 0
  deriving DecidableEq, Repr

/-- How far a client is. -/
inductive Phase where
  | idle
  /-- A writer is about to look at the barrier. -/
  | waiting
  /-- It is about to read the epoch. -/
  | reading
  /-- It is about to count itself in. -/
  | entering (epoch : Epoch)
  /-- It has done so and is about to look at the barrier again. -/
  | checking (epoch : Epoch)
  /-- It is about to read the epoch again. -/
  | confirming (epoch : Epoch)
  /-- It is about to count itself out, to start over. -/
  | retreating (epoch : Epoch)
  /-- **It holds a pin.** -/
  | pinned (epoch : Epoch)
  /-- A drain is about to raise the barrier. -/
  | raising
  /-- It has done so and is about to read the epoch. -/
  | finding
  /-- It is about to look at the count of the generation. -/
  | emptying (epoch : Epoch)
  /-- The count was zero, and it is about to announce the generation. -/
  | announcing (epoch : Epoch)
  /-- **It holds the barrier.** -/
  | holding (barrier : Barrier)
  /-- Its first flip is about to store the new epoch. -/
  | storing (epoch : Epoch)
  /-- The flip is about to be counted. -/
  | counting (epoch : Epoch)
  /-- The flip is about to read the epoch for its answer. -/
  | answering (epoch : Epoch)
  /-- It lets go of the barrier and is about to lower it. -/
  | lowering (barrier : Barrier)
  deriving DecidableEq, Repr

namespace Phase

/-- The generation in which a client is counted. -/
def counted? : Phase → Option Epoch
  | checking e | confirming e | retreating e | pinned e => some e
  | _ => none

/-- The client has raised the barrier and not lowered it yet. -/
def owns : Phase → Bool
  | finding | emptying _ | announcing _ | holding _ | storing _ | counting _ | answering _
  | lowering _ => true
  | _ => false

/-- **The barrier that a client has been granted**, until it is down again.  It counts as flipped
from when the new epoch is stored. -/
def barrier? : Phase → Option Barrier
  | holding b | lowering b => some b
  | storing e => some { retiring := e }
  | counting e | answering e => some { retiring := e, flipped := true }
  | _ => none

/-- **The generation that a client keeps free of writers**: from when its barrier is granted until
its flip has stored the new epoch or the barrier is down. -/
def secured? (p : Phase) : Option Epoch :=
  p.barrier?.bind fun b => if b.flipped then none else some b.retiring

end Phase

/-! ## 2. The steps -/

/-- One step of one client: the words and its phase before, and both after. -/
inductive Move : Words → Phase → Words → Phase → Prop where
  /-- A client asks for a pin. -/
  | askPin (w : Words) : Move w .idle w .waiting
  | blocked (w : Words) (up : w.barrier = true) : Move w .waiting w .waiting
  | admitted (w : Words) (down : w.barrier = false) : Move w .waiting w .reading
  | read (w : Words) : Move w .reading w (.entering w.current)
  | enter (w : Words) (e : Epoch) :
      Move w (.entering e) { w with writers := w.writers.change (· + 1) e } (.checking e)
  | meetBarrier (w : Words) (e : Epoch) (up : w.barrier = true) :
      Move w (.checking e) w (.retreating e)
  | passBarrier (w : Words) (e : Epoch) (down : w.barrier = false) :
      Move w (.checking e) w (.confirming e)
  | outdated (w : Words) (e : Epoch) (moved : w.current ≠ e) :
      Move w (.confirming e) w (.retreating e)
  /-- **A pin is granted.** -/
  | grant (w : Words) (e : Epoch) (same : w.current = e) : Move w (.confirming e) w (.pinned e)
  | retreat (w : Words) (e : Epoch) :
      Move w (.retreating e) { w with writers := w.writers.change (· - 1) e } .waiting
  | unpin (w : Words) (e : Epoch) :
      Move w (.pinned e) { w with writers := w.writers.change (· - 1) e } .idle
  /-- A client asks for the barrier. -/
  | askBarrier (w : Words) : Move w .idle w .raising
  | taken (w : Words) (up : w.barrier = true) : Move w .raising w .raising
  | raise (w : Words) (down : w.barrier = false) :
      Move w .raising { w with barrier := true } .finding
  | find (w : Words) : Move w .finding w (.emptying w.current)
  | occupied (w : Words) (e : Epoch) (busy : w.writers.of e ≠ 0) :
      Move w (.emptying e) w (.emptying e)
  | empty (w : Words) (e : Epoch) (clear : w.writers.of e = 0) :
      Move w (.emptying e) w (.announcing e)
  /-- **The barrier is granted.** -/
  | announce (w : Words) (e : Epoch) :
      Move w (.announcing e) { w with draining := some e } (.holding { retiring := e })
  | beginFlip (w : Words) (e : Epoch) :
      Move w (.holding { retiring := e }) { w with draining := none } (.storing e)
  /-- **The epoch flips.** -/
  | store (w : Words) (e : Epoch) :
      Move w (.storing e) { w with current := e.other } (.counting e)
  | count (w : Words) (e : Epoch) :
      Move w (.counting e) { w with shifts := w.shifts + 1 } (.answering e)
  | answer (w : Words) (e : Epoch) :
      Move w (.answering e) w (.holding { retiring := e, flipped := true })
  /-- A further flip only reads the epoch. -/
  | flipAgain (w : Words) (e : Epoch) :
      Move w (.holding { retiring := e, flipped := true }) w
        (.holding { retiring := e, flipped := true })
  | letGo (w : Words) (b : Barrier) :
      Move w (.holding b) { w with draining := none } (.lowering b)
  | lower (w : Words) (b : Barrier) : Move w (.lowering b) { w with barrier := false } .idle

/-! ## 3. Systems of clients -/

/-- The shared words and the phases of all clients. -/
structure System where
  words : Words := {}
  clients : List Phase
  deriving DecidableEq, Repr

/-- **One client of a system makes one step.** -/
inductive Step : System → System → Prop where
  | move {w w' : Words} {p p' : Phase} (before after : List Phase) (m : Move w p w' p') :
      Step ⟨w, before ++ p :: after⟩ ⟨w', before ++ p' :: after⟩

/-- **The systems that come about**, from clients that are all idle, by any steps in any
order. -/
inductive Reachable : System → Prop where
  | start (clients : Nat) : Reachable { clients := List.replicate clients .idle }
  | step {s s' : System} (r : Reachable s) (m : Step s s') : Reachable s'

end Handshake

end TraceRecorder
