/-
# Notifications of epoch shifts

Threads that keep data by epoch learn of shifts from a board with one numbered notice: the latest
shift.  A waiter that has seen number `n` is answered at once by any later notice, and otherwise
waits until its time is over.
-/
import TraceRecorder.Epoch

namespace TraceRecorder

/-- The latest notice: how many there have been, and the epoch of the last one. -/
structure Notifier where
  seq : Nat := 0
  epoch : Epoch := .zero
  deriving DecidableEq, Repr

namespace Notifier

def post (n : Notifier) (e : Epoch) : Notifier := ⟨n.seq + 1, e⟩

/-- **The notice after number `seen`**, if it is already up.  `none` is a wait that runs out
unless another thread posts. -/
def after? (n : Notifier) (seen : Nat) : Option Notifier :=
  if seen < n.seq then some n else none

end Notifier

end TraceRecorder
