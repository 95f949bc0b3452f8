/-
# The registry of waiting constants

Constants wait by type: the registry is a dictionary with a row for each type, and a row holds the
constants of its type in the order of registration.  Operations walk the rows; none of them looks at
the order in which constants of different types were registered.

`TypeSet` is the list that is not divided into rows.
-/
import TraceRecorder.TypeSet

namespace TraceRecorder

/-- A constant that waits in the row of its type. -/
structure WaitingConstant where
  key : UInt64
  value : Bytes
  /-- The class whose unloading makes the constant meaningless. -/
  referent : Option ClassId := none
  deriving DecidableEq, Repr

/-- The constant in the row of its type. -/
def PendingConstant.waiting (c : PendingConstant) : WaitingConstant := ⟨c.key, c.value, c.referent⟩

/-- A constant stays if it refers to none of the classes. -/
def WaitingConstant.stays (classes : List ClassId) (c : WaitingConstant) : Bool :=
  c.referent.all fun id => !classes.contains id

abbrev TypeRows := Dict UInt64 (List WaitingConstant)

/-- The constants that wait, by type. -/
structure TypeRegistry where
  rows : TypeRows := []
  deriving DecidableEq, Repr

namespace TypeRegistry

/-- The registry with one more constant, which goes to the end of its row. -/
def register (r : TypeRegistry) (c : PendingConstant) : TypeRegistry :=
  ⟨Dict.update r.rows c.typeId fun row => row.getD [] ++ [c.waiting]⟩

def sizeOf (rows : TypeRows) : Nat := (rows.values.map List.length).foldr (· + ·) 0

def size (r : TypeRegistry) : Nat := sizeOf r.rows

def isEmpty (r : TypeRegistry) : Bool := r.size == 0

/-- A row as a relation, to which its constants are added one by one. -/
def relationOf (row : UInt64 × List WaitingConstant) : Relation :=
  row.2.foldl (fun relation c => relation.add c.key c.value) { typeId := row.1 }

/-- **One relation for each type** whose row is not empty.  The registry is left as it is. -/
def relations (r : TypeRegistry) : List Relation :=
  (r.rows.filter fun row => !row.2.isEmpty).map relationOf

/-- The relations, and the registry with nothing in it. -/
def take (r : TypeRegistry) : List Relation × TypeRegistry := (r.relations, {})

/-- How many constants are discarded, and the registry with nothing in it. -/
def clear (r : TypeRegistry) : Nat × TypeRegistry := (r.size, {})

/-- The rows with only the constants that stay, and without the rows that this empties.  What goes
is counted on from `removed`. -/
def purgeRows (classes : List ClassId) : (removed : Nat) → TypeRows → Nat × TypeRows
  | removed, [] => (removed, [])
  | removed, (typeId, row) :: rows =>
    let left := row.filter (WaitingConstant.stays classes)
    let (removed, rows) := purgeRows classes (removed + (row.length - left.length)) rows
    (removed, if left.isEmpty then rows else (typeId, left) :: rows)

/-- **How many constants refer to one of the classes, and the registry without them.**  Without
classes the rows are not looked at. -/
def purge (r : TypeRegistry) (classes : List ClassId) : Nat × TypeRegistry :=
  if classes.isEmpty then (0, r)
  else
    let (removed, rows) := purgeRows classes 0 r.rows
    (removed, ⟨rows⟩)

end TypeRegistry

end TraceRecorder
