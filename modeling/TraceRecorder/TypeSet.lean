/-
# Pending type sets

Constants that are registered wait in the type set until they are written, purged or discarded.
The type set is the list of them in the order of registration.  Written out it is one relation
for each type, types ascending, and each relation keeps the order of registration.

A constant may refer to a class; it is purged when that class is unloaded.
-/
import TraceRecorder.Host

namespace TraceRecorder

/-- A constant that waits to be written. -/
structure PendingConstant where
  typeId : UInt64
  key : UInt64
  value : Bytes
  /-- The class whose unloading makes the constant meaningless. -/
  referent : Option ClassId := none
  deriving DecidableEq, Repr

/-- The constants that wait, in the order of registration. -/
abbrev TypeSet := List PendingConstant

namespace TypeSet

def register (s : TypeSet) (c : PendingConstant) : TypeSet := s ++ [c]

/-- The pairs of one type, in the order of registration. -/
def pairsOf (s : TypeSet) (typeId : UInt64) : List Pair :=
  (s.filter fun c => c.typeId == typeId).map fun c => (c.key, c.value)

/-- **One relation for each type that is present**, types ascending. -/
def relations (s : TypeSet) : List Relation :=
  (ascending (s.map PendingConstant.typeId)).map fun t => ⟨t, s.pairsOf t⟩

/-- A constant that refers to one of the classes. -/
def refersTo (classes : List ClassId) (c : PendingConstant) : Bool :=
  match c.referent with
  | none => false
  | some r => classes.contains r

/-- The constants that refer to none of the classes. -/
def purge (s : TypeSet) (classes : List ClassId) : TypeSet :=
  s.filter fun c => !refersTo classes c

/-- How many constants refer to one of the classes. -/
def purgeCount (s : TypeSet) (classes : List ClassId) : Nat := s.countP (refersTo classes)

end TypeSet

end TraceRecorder
