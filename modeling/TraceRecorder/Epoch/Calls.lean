/-
# Calls on the epoch protocol

Clients of the epoch protocol pin the current generation and let go of it, raise the barrier, flip
the epoch under it and lower it again.  Between two calls a client holds a pin, the barrier or
nothing (`EpochHandle`), and what it holds decides which calls it can make.

`EpochClients` is the protocol in use by any number of clients.  They make one call after the other,
each of them as a whole; a call that would have to wait is refused and changes nothing.
-/
import TraceRecorder.Epoch

namespace TraceRecorder

/-- What a client of the epoch protocol holds between two calls. -/
inductive EpochHandle where
  | nothing
  /-- A pin on a generation. -/
  | pin (epoch : Epoch)
  /-- The barrier: the generation that it found, and whether it has flipped the epoch. -/
  | barrier (b : Barrier)
  deriving DecidableEq, Repr

/-- A call of a client. -/
inductive EpochCall where
  | pin
  | unpin
  | raise
  | flip
  | lower
  deriving DecidableEq, Repr

/-- What a call answers. -/
inductive EpochAnswer where
  | done
  /-- The generation of a new pin, the one that a new barrier found, or the current one after a
  flip. -/
  | epoch (e : Epoch)
  /-- The client would have to wait. -/
  | refused
  /-- The client has nothing to make the call with, or no hand free for what it asks for. -/
  | misplaced
  deriving DecidableEq, Repr

/-- **One call of a client**, by what it holds: the answer, the controller, and what the client
holds then. -/
def EpochController.serve (c : EpochController) :
    EpochHandle → EpochCall → EpochAnswer × EpochController × EpochHandle
  | .nothing, .pin =>
    match c.pin? with
    | some (e, c) => (.epoch e, c, .pin e)
    | none => (.refused, c, .nothing)
  | .pin e, .unpin => (.done, c.leave e, .nothing)
  | .nothing, .raise =>
    match c.raise? with
    | some c => (.epoch c.current, c, .barrier { retiring := c.current })
    | none => (.refused, c, .nothing)
  | .barrier b, .flip => (.epoch c.flip.current, c.flip, .barrier { b with flipped := true })
  | .barrier _, .lower => (.done, c.lower, .nothing)
  | held, _ => (.misplaced, c, held)

/-- **The epoch protocol in use**: its state, and what each client holds. -/
structure EpochClients where
  controller : EpochController := {}
  handles : List EpochHandle
  deriving DecidableEq, Repr

namespace EpochClients

/-- A new protocol, and clients that hold nothing. -/
def create (clients : Nat) : EpochClients := { handles := List.replicate clients .nothing }

/-- One client makes one call. -/
def call (s : EpochClients) (client : Nat) (request : EpochCall) : EpochAnswer × EpochClients :=
  match s.handles[client]? with
  | none => (.misplaced, s)
  | some held =>
    let (answer, controller, held) := s.controller.serve held request
    (answer, ⟨controller, s.handles.set client held⟩)

/-- **The protocol after some calls**, each with the client that makes it. -/
def callAll (s : EpochClients) (calls : List (Nat × EpochCall)) : EpochClients :=
  calls.foldl (fun s c => (s.call c.1 c.2).2) s

end EpochClients

end TraceRecorder
