/-
# Tapes

A tape is a byte string that grows at its end, packed so that long ones are cheap to keep and to
copy.  `bytes` is what it holds, and each operation is said by what it does to that:

* `bytes_append` and `bytes_join`: the new bytes stand behind all others;
* `bytes_take` and `bytes_drop`: a tape can be cut in two;
* `bytes_overwrite`: a patch replaces bytes and moves none;
* `bytes_splice`: so does a splice, and it may reach past the end;
* `length_bytes`: the length is that of the bytes.

Two tapes of the same bytes are the same (`eq_of_bytes_eq`).
-/
import TraceRecorder.Bytes

namespace TraceRecorder

/-- A byte string that grows at its end. -/
structure Tape where
  packed : ByteArray := .empty

namespace Tape

/-! ## 1. Operations -/

def empty : Tape := {}

/-- **The bytes in order.** -/
def bytes (t : Tape) : Bytes := t.packed.data.toList

instance : Repr Tape := ⟨fun t => reprPrec t.bytes⟩

theorem eq_of_bytes_eq {t u : Tape} (h : t.bytes = u.bytes) : t = u := by
  obtain ⟨⟨⟨_⟩⟩⟩ := t
  obtain ⟨⟨⟨_⟩⟩⟩ := u
  cases h
  rfl

instance : DecidableEq Tape := fun t u =>
  decidable_of_iff (t.packed.data = u.packed.data)
    ⟨fun h => eq_of_bytes_eq (congrArg Array.toList h), fun h => congrArg (·.packed.data) h⟩

def length (t : Tape) : Nat := t.packed.size

/-- **The tape with more bytes at its end.** -/
def append (t : Tape) (more : Bytes) : Tape := ⟨more.foldl ByteArray.push t.packed⟩

def ofBytes (bytes : Bytes) : Tape := empty.append bytes

/-- **One tape behind the other.** -/
def join (t u : Tape) : Tape := ⟨t.packed ++ u.packed⟩

def take (t : Tape) (count : Nat) : Tape := ⟨t.packed.extract 0 (min count t.length)⟩

def drop (t : Tape) (count : Nat) : Tape := ⟨t.packed.extract (min count t.length) t.length⟩

/-- **The tape with `patch` written over the bytes from `start` on.** -/
def overwrite (t : Tape) (start : Nat) : (patch : Bytes) → Tape
  | [] => t
  | b :: patch => overwrite ⟨t.packed.set! start b⟩ (start + 1) patch

/-- **The tape with another one written from `start` on**, grown with zeros where it is too
short. -/
def splice (t : Tape) (start : Nat) (patch : Tape) : Tape :=
  (t.take start).join
    ((ofBytes (List.replicate (start - t.length) 0)).join
      (patch.join (t.drop (start + patch.length))))

/-! ## 2. Laws -/

@[simp] theorem bytes_empty : empty.bytes = [] := rfl

@[simp] theorem length_empty : empty.length = 0 := rfl

@[simp] theorem length_bytes (t : Tape) : t.bytes.length = t.length := by
  simp [bytes, length]

theorem toList_foldl_push (more : Bytes) (a : ByteArray) :
    (more.foldl ByteArray.push a).data.toList = a.data.toList ++ more := by
  induction more generalizing a with
  | nil => simp
  | cons b more ih => rw [List.foldl_cons, ih, ByteArray.data_push, Array.toList_push,
      List.append_assoc, List.singleton_append]

@[simp] theorem bytes_append (t : Tape) (more : Bytes) :
    (t.append more).bytes = t.bytes ++ more := toList_foldl_push more t.packed

@[simp] theorem length_append (t : Tape) (more : Bytes) :
    (t.append more).length = t.length + more.length := by
  rw [← length_bytes, bytes_append, List.length_append, length_bytes]

@[simp] theorem bytes_ofBytes (bytes : Bytes) : (ofBytes bytes).bytes = bytes := by
  simp [ofBytes]

@[simp] theorem length_ofBytes (bytes : Bytes) : (ofBytes bytes).length = bytes.length := by
  simp [ofBytes]

@[simp] theorem bytes_join (t u : Tape) : (t.join u).bytes = t.bytes ++ u.bytes := by
  simp [bytes, join]

@[simp] theorem length_join (t u : Tape) : (t.join u).length = t.length + u.length := by
  rw [← length_bytes, bytes_join, List.length_append, length_bytes, length_bytes]

@[simp] theorem bytes_take (t : Tape) (count : Nat) :
    (t.take count).bytes = t.bytes.take count := by
  have h : (t.take count).bytes = t.bytes.take (min count t.length) := by simp [bytes, take]
  rw [h, ← length_bytes, ← List.take_eq_take_min]

@[simp] theorem bytes_drop (t : Tape) (count : Nat) :
    (t.drop count).bytes = t.bytes.drop count := by
  have h : (t.drop count).bytes = t.bytes.drop (min count t.length) := by
    simp [bytes, drop, length, List.take_of_length_le]
  rw [h]
  by_cases hc : count ≤ t.length
  · rw [Nat.min_eq_left hc]
  · have hl : t.length ≤ count := Nat.le_of_not_le hc
    rw [Nat.min_eq_right hl, List.drop_of_length_le (by simp),
      List.drop_of_length_le (by simpa using hl)]

@[simp] theorem bytes_overwrite (t : Tape) (start : Nat) (patch : Bytes) :
    (t.overwrite start patch).bytes = Bytes.overwrite t.bytes start patch := by
  induction patch generalizing t start with
  | nil => rfl
  | cons b patch ih =>
    rw [overwrite, ih, Bytes.overwrite]
    simp [bytes, ByteArray.set!]

@[simp] theorem length_overwrite (t : Tape) (start : Nat) (patch : Bytes) :
    (t.overwrite start patch).length = t.length := by
  rw [← length_bytes, bytes_overwrite, Bytes.length_overwrite, length_bytes]

@[simp] theorem bytes_splice (t : Tape) (start : Nat) (patch : Tape) :
    (t.splice start patch).bytes = Bytes.splice t.bytes start patch.bytes := by
  simp [splice, Bytes.splice]

end Tape

end TraceRecorder
