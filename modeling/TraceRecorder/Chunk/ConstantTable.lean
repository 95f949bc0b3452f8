/-
# Constant tables

A chunk assigns values to constants, and a later value replaces an earlier one.  The table of a
chunk holds the value of each constant after the last assignment, in the order of types and,
within a type, of keys.

A table is known by `valueOf?`, and `valueOf?_assign` says what an assignment does to that.
-/
import Std.Data.TreeMap.Lemmas
import Std.Data.TreeMap.Slice
import TraceRecorder.Chunk.Entry

namespace TraceRecorder

/-- A constant: its type and its key. -/
structure ConstantId where
  typeId : UInt64
  key : UInt64
  deriving DecidableEq, Repr

namespace ConstantId

/-- **Constants are in the order of types, and of keys within a type.** -/
instance : Ord ConstantId := ⟨compareLex (compareOn typeId) (compareOn key)⟩

instance : Std.TransOrd ConstantId :=
  inferInstanceAs (Std.TransCmp (compareLex (compareOn typeId) (compareOn key)))

instance : Std.LawfulEqOrd ConstantId where
  eq_of_compare {a b} h := by
    have h : (compare a.typeId b.typeId).then (compare a.key b.key) = .eq := h
    rw [Ordering.then_eq_eq, Std.LawfulEqOrd.compare_eq_iff_eq,
      Std.LawfulEqOrd.compare_eq_iff_eq] at h
    cases a
    cases b
    simp_all

theorem compare_eq_lt_iff {a b : ConstantId} :
    compare a b = .lt ↔ a.typeId < b.typeId ∨ a.typeId = b.typeId ∧ a.key < b.key := by
  have h : compare a b = (compare a.typeId b.typeId).then (compare a.key b.key) := rfl
  rw [h, Ordering.then_eq_lt, Std.compare_eq_lt, Std.LawfulEqOrd.compare_eq_iff_eq,
    Std.compare_eq_lt]

/-- The first constant that a type can have. -/
def least (typeId : UInt64) : ConstantId := ⟨typeId, 0⟩

/-- The last constant that a type can have. -/
def greatest (typeId : UInt64) : ConstantId := ⟨typeId, 18446744073709551615⟩

/-- **Between the first and the last constant of a type**, both included, is just that type. -/
theorem between_iff (c : ConstantId) (typeId : UInt64) :
    (compare c (least typeId)).isGE ∧ (compare c (greatest typeId)).isLE ↔ c.typeId = typeId := by
  have hleast : ¬ c.key < 0 := UInt64.not_lt.2 UInt64.zero_le
  have hgreatest : ¬ 18446744073709551615 < c.key := by
    rw [UInt64.not_lt, UInt64.le_iff_toNat_le]
    exact Nat.le_of_lt_succ c.key.toNat_lt
  rw [Ordering.isGE_iff_ne_lt, Ordering.isLE_iff_ne_gt, Std.OrientedCmp.gt_iff_lt,
    compare_eq_lt_iff, compare_eq_lt_iff]
  constructor
  · rintro ⟨hbelow, habove⟩
    have hge : typeId ≤ c.typeId := UInt64.not_lt.1 fun h => hbelow (.inl h)
    have hle : c.typeId ≤ typeId := UInt64.not_lt.1 fun h => habove (.inl h)
    exact UInt64.le_antisymm hle hge
  · rintro rfl
    simp [least, greatest, hleast, hgreatest, UInt64.lt_irrefl]

end ConstantId

abbrev ConstantTable := Std.TreeMap ConstantId Bytes

namespace ConstantTable

/-- The table after one pair of a segment of the given type. -/
def assign (typeId : UInt64) (t : ConstantTable) (pair : Pair) : ConstantTable :=
  t.insert ⟨typeId, pair.1⟩ pair.2

/-- The table after one segment.  Damage in a segment keeps its offset in the body. -/
def addSegment (t : ConstantTable) (s : Segment) : Except Damage ConstantTable := do
  let pairs ← s.pairs.complete
  pure (pairs.foldl (assign s.typeId) t)

/-- The table after one entry. -/
def addEntry (t : ConstantTable) (e : Entry) : Except Damage ConstantTable := do
  let table ← e.segments.items.foldlM addSegment t
  match e.segments.damage with
  | none => pure table
  | some damage => throw (e.rebase damage)

/-- **The table of a chunk**, if every entry, segment and pair of it can be read. -/
def ofChunk (chunk : Bytes) : Except Damage ConstantTable := do
  let reading := Entry.readAll chunk
  let table ← reading.items.foldlM addEntry (∅ : ConstantTable)
  match reading.damage with
  | none => pure table
  | some damage => throw damage

def valueOf? (t : ConstantTable) (typeId key : UInt64) : Option Bytes :=
  t[ConstantId.mk typeId key]?

/-- The constants of one type, in key order.  They stand side by side in the table. -/
def ofType (t : ConstantTable) (typeId : UInt64) : List Pair :=
  t[(ConstantId.least typeId)...=(ConstantId.greatest typeId)].toList.map
    fun entry => (entry.1.key, entry.2)

theorem ofType_eq (t : ConstantTable) (typeId : UInt64) :
    t.ofType typeId =
      (t.toList.filter fun entry => entry.1.typeId = typeId).map
        fun entry => (entry.1.key, entry.2) := by
  rw [ofType, Std.TreeMap.toList_rcc compare]
  simp only [ConstantId.between_iff]

/-- **An assignment gives one constant its value**, and no other. -/
theorem valueOf?_assign (t : ConstantTable) (typeId typeId' key : UInt64) (pair : Pair) :
    valueOf? (assign typeId t pair) typeId' key =
      if typeId = typeId' ∧ pair.1 = key then some pair.2 else valueOf? t typeId' key := by
  rw [valueOf?, assign, Std.TreeMap.getElem?_insert, valueOf?]
  by_cases h : typeId = typeId' ∧ pair.1 = key <;> simp [h]

end ConstantTable

end TraceRecorder
