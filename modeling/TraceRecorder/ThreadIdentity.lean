/-
# Thread identities

A thread is described by its id, its id in the operating system, its name and its group; a
virtual thread belongs to one group that all virtual threads share.  An identity is written as
two relations, one for the thread and one for its group, and `ThreadRecord.decode` reads the
thread's constant back.

A constant cannot say "no carrier" other than by the id 0, which no thread has: it is the
recorder's own.
-/
import TraceRecorder.Chunk.ConstantTable
import TraceRecorder.Chunk.Field
import TraceRecorder.Dict

namespace TraceRecorder

abbrev ThreadId := UInt64

/-- The group that every virtual thread belongs to. -/
def virtualGroupId : UInt64 := 1

def virtualGroupName : String := "VirtualThreads"

/-- The description of a thread. -/
structure ThreadInfo where
  id : ThreadId
  osId : UInt64
  name : String
  groupId : UInt64
  groupName : String
  isVirtual : Bool
  deriving DecidableEq, Repr

namespace ThreadInfo

/-- A thread of the operating system, known there under its own id. -/
def carrier (id : ThreadId) (name : String) (groupId : UInt64) (groupName : String) : ThreadInfo :=
  ⟨id, id, name, groupId, groupName, false⟩

/-- A virtual thread: the operating system does not know it. -/
def virtualThread (id : ThreadId) (name : String) : ThreadInfo :=
  ⟨id, 0, name, virtualGroupId, virtualGroupName, true⟩

/-- The value of a thread constant. -/
def threadValue (osId : UInt64) (name : String) (groupId : UInt64) (isVirtual : Bool)
    (carrier : Option ThreadId) : Bytes :=
  Field.encodeAll [.word osId, .text name, .word groupId, .flag isVirtual,
    .word (carrier.getD 0)]

/-- The value of a group constant: no parent, then the name. -/
def groupValue (name : String) : Bytes := Field.encodeAll [.word 0, .text name]

def value (info : ThreadInfo) (carrier : Option ThreadId) : Bytes :=
  threadValue info.osId info.name info.groupId info.isVirtual carrier

/-- **The relations that describe a thread** under an id: the thread, then its group. -/
def relations (info : ThreadInfo) (id : ThreadId) (carrier : Option ThreadId) : List Relation :=
  [⟨ConstantType.thread, [(id, info.value carrier)]⟩,
   ⟨ConstantType.threadGroup, [(info.groupId, groupValue info.groupName)]⟩]

/-- The relations for a checkpoint of `thread`: with a virtual thread, that one is described and
`thread` is its carrier. -/
def checkpointRelations (thread : ThreadInfo) (id : Option ThreadId)
    (mounted : Option ThreadInfo) : List Relation :=
  match mounted with
  | some v => v.relations (id.getD v.id) (some thread.id)
  | none => thread.relations (id.getD thread.id) none

/-- A virtual thread by its id alone: no name, and the shared group. -/
def simplified (id : ThreadId) : Relation :=
  ⟨ConstantType.thread, [(id, threadValue 0 "" virtualGroupId true none)]⟩

/-- The groups of some threads in ascending order, each under the name that comes first. -/
def groups (threads : List ThreadInfo) : Dict UInt64 String :=
  threads.foldl (fun d info => Dict.update d info.groupId (·.getD info.groupName)) []

/-- **The table of threads**: a relation of all threads in the given order, then one of their
groups. -/
def table (threads : List ThreadInfo) : List Relation :=
  [⟨ConstantType.thread, threads.map fun info => (info.id, info.value none)⟩,
   ⟨ConstantType.threadGroup, (groups threads).map fun g => (g.1, groupValue g.2)⟩]

/-- **A thread's identity as an entry of its own**, outside any chunk. -/
def standaloneEntry (thread : ThreadInfo) (id : Option ThreadId) (mounted : Option ThreadInfo)
    (startTime duration : UInt64) : Bytes :=
  Entry.frame ((thread.checkpointRelations id mounted).map Relation.encode) startTime duration

end ThreadInfo

/-- What a thread constant says. -/
structure ThreadRecord where
  id : ThreadId
  osId : UInt64
  name : String
  groupId : UInt64
  isVirtual : Bool
  carrier : Option ThreadId
  deriving DecidableEq, Repr

namespace ThreadRecord

/-- The reader of a thread constant's value. -/
def reader (id : ThreadId) : FieldReader ThreadRecord := do
  let osId ← FieldReader.word
  let name ← FieldReader.text
  let groupId ← FieldReader.word
  let isVirtual ← FieldReader.flag
  let carrier ← FieldReader.word
  pure ⟨id, osId, name, groupId, isVirtual, if carrier = 0 then none else some carrier⟩

/-- **The thread that a constant describes.**  Bytes behind the last field are ignored. -/
def decode (id : ThreadId) (value : Bytes) : Except Damage ThreadRecord :=
  (Fallible.runOn (reader id) { rest := value }).1

end ThreadRecord

/-- The threads of a table, in ascending order of their ids. -/
def ConstantTable.threads (t : ConstantTable) : Except Damage (List ThreadRecord) :=
  (t.ofType ConstantType.thread).mapM fun pair => ThreadRecord.decode pair.1 pair.2

end TraceRecorder
