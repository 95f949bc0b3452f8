/-
# Static constants

Some constants are the same in every chunk and are written at each rotation, so that a chunk can
be read alone: the names of the thread states and the group of the virtual threads.  A recorder
may be given more of them.
-/
import TraceRecorder.ThreadIdentity

namespace TraceRecorder

/-- The names of the thread states, by key. -/
def threadStateNames : List String :=
  ["STATE_NEW", "STATE_RUNNABLE", "STATE_BLOCKED", "STATE_WAITING", "STATE_TIMED_WAITING",
   "STATE_TERMINATED"]

namespace StaticConstants

def threadStates : Relation :=
  ⟨ConstantType.threadState,
    threadStateNames.mapIdx fun key name => (UInt64.ofNat key, Field.encodeAll [.text name])⟩

/-- The group that simplified virtual threads refer to. -/
def virtualGroup : Relation :=
  ⟨ConstantType.threadGroup, [(virtualGroupId, ThreadInfo.groupValue virtualGroupName)]⟩

def builtin : List Relation := [threadStates, virtualGroup]

end StaticConstants

end TraceRecorder
