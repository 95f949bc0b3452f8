/-
# The host

The runtime under observation knows which threads are alive and which classes are about to be
unloaded.  A recorder asks it for both when it writes thread tables and purges type sets.  The
memory for buffers comes from the machine that the runtime runs on.
-/
import TraceRecorder.Memory
import TraceRecorder.ThreadIdentity

namespace TraceRecorder

abbrev ClassId := UInt64

/-- The threads and classes that the host reports, both in ascending order. -/
structure Host where
  threads : Dict ThreadId ThreadInfo := []
  unloadingSet : Dict ClassId Unit := []
  /-- The memory of the machine. -/
  memory : Memory := .unbounded

namespace Host

def liveThreads (h : Host) : List ThreadInfo := Dict.values h.threads

/-- The classes that are about to be unloaded. -/
def unloading (h : Host) : List ClassId := Dict.keys h.unloadingSet

def attach (h : Host) (info : ThreadInfo) : Host :=
  { h with threads := Dict.insert h.threads info.id info }

def detach (h : Host) (id : ThreadId) : Host :=
  { h with threads := Dict.erase h.threads id }

/-- The thread of an id, if it is alive. -/
def thread? (h : Host) (id : ThreadId) : Option ThreadInfo := Dict.find? h.threads id

def markUnloading (h : Host) (classes : List ClassId) : Host :=
  { h with unloadingSet := classes.foldl (fun d c => Dict.insert d c ()) h.unloadingSet }

def finishUnloading (h : Host) : Host := { h with unloadingSet := [] }

end Host

end TraceRecorder
