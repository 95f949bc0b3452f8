/-
# Rows of whole entries

The sizes in the headers say where the entries of a byte string begin and end.  `Entry.split` cuts
a byte string there and looks at nothing else of it, so what it gives is the entries as they stand,
byte for byte.

* `split_flatten_append`: entries put one behind the other are found again, and so the row says
  which entries it was made of;
* `IsRow.split_append`: what follows a row of entries does not change them;
* `whole_piece`: what a writer frames is a whole entry, as long as its size is a 64-bit word.
-/
import TraceRecorder.Chunk.Entry

namespace TraceRecorder

namespace Entry

/-! ## 1. Cutting at the sizes -/

/-- The size that a header at the front of some bytes announces. -/
def sizeAt (bytes : Bytes) : Nat := (Bytes.word64 bytes).toNat

/-- **The entries of a byte string**, as far as whole ones stand there. -/
def split (bytes : Bytes) : List Bytes :=
  if Header.length ≤ sizeAt bytes ∧ sizeAt bytes ≤ bytes.length then
    bytes.take (sizeAt bytes) :: split (bytes.drop (sizeAt bytes))
  else []
  termination_by bytes.length
  decreasing_by
    have hl : Header.length = 32 := rfl
    simp only [List.length_drop]
    omega

/-- A whole entry is as long as its header says. -/
structure Whole (e : Bytes) : Prop where
  header : Header.length ≤ e.length
  size : sizeAt e = e.length

/-- **The bytes are whole entries**: nothing is left over when they are cut. -/
def IsRow (bytes : Bytes) : Prop := (split bytes).flatten = bytes

theorem split_nil : split [] = [] := by
  rw [split, if_neg]
  rintro ⟨hleast, hmost⟩
  have hl : Header.length = 32 := rfl
  rw [List.length_nil] at hmost
  omega

theorem isRow_nil : IsRow [] := by
  rw [IsRow, split_nil, List.flatten_nil]

theorem sizeAt_append {e : Bytes} (h : Header.length ≤ e.length) (rest : Bytes) :
    sizeAt (e ++ rest) = sizeAt e := by
  have hl : Header.length = 32 := rfl
  have ht : (e ++ rest).take 8 = e.take 8 := List.take_append_of_le_length (by omega)
  rw [sizeAt, sizeAt, Bytes.word64, Bytes.word64, ht]

theorem Whole.split_append {e : Bytes} (h : Whole e) (rest : Bytes) :
    split (e ++ rest) = e :: split rest := by
  have hs : sizeAt (e ++ rest) = e.length := (sizeAt_append h.header rest).trans h.size
  rw [split, hs, if_pos, List.take_left, List.drop_left]
  exact ⟨h.header, by simp⟩

/-- **Entries put one behind the other are found again**, and so is what follows them. -/
theorem split_flatten_append {es : List Bytes} (h : ∀ e ∈ es, Whole e) (rest : Bytes) :
    split (es.flatten ++ rest) = es ++ split rest := by
  induction es with
  | nil => rfl
  | cons e es ih =>
    have he : Whole e := h e List.mem_cons_self
    rw [List.flatten_cons, List.append_assoc, he.split_append,
      ih fun x hx => h x (List.mem_cons_of_mem _ hx), List.cons_append]

/-- Whatever is cut off is a whole entry. -/
theorem whole_of_mem_split {bytes e : Bytes} (h : e ∈ split bytes) : Whole e := by
  induction bytes using split.induct with
  | case1 bytes hc ih =>
    rw [split, if_pos hc] at h
    rcases List.mem_cons.1 h with rfl | h
    · -- The header is part of what is cut off, so it says the same there.
      have hlen : (bytes.take (sizeAt bytes)).length = sizeAt bytes :=
        List.length_take_of_le hc.2
      have hhead : Header.length ≤ (bytes.take (sizeAt bytes)).length := by
        rw [hlen]
        exact hc.1
      refine ⟨hhead, ?_⟩
      have hs := sizeAt_append hhead (bytes.drop (sizeAt bytes))
      rw [List.take_append_drop] at hs
      rw [← hs, hlen]
    · exact ih h
  | case2 bytes hc =>
    rw [split, if_neg hc] at h
    cases h

theorem Whole.split {e : Bytes} (h : Whole e) : split e = [e] := by
  have hs := h.split_append []
  rwa [List.append_nil, split_nil] at hs

theorem Whole.isRow {e : Bytes} (h : Whole e) : IsRow e := by
  rw [IsRow, h.split, List.flatten_singleton]

/-- **What follows a row of entries does not change them.** -/
theorem IsRow.split_append {a : Bytes} (h : IsRow a) (b : Bytes) :
    Entry.split (a ++ b) = Entry.split a ++ Entry.split b := by
  have hall : ∀ e ∈ Entry.split a, Whole e := fun _ he => whole_of_mem_split he
  have hs := split_flatten_append hall b
  rwa [h] at hs

theorem IsRow.append {a b : Bytes} (ha : IsRow a) (hb : IsRow b) : IsRow (a ++ b) := by
  rw [IsRow, ha.split_append, List.flatten_append, ha, hb]

/-! ## 2. Entries as writers frame them -/

theorem ne_nil_of_ofNat_length_ne_zero {α : Type} {items : List α}
    (h : UInt32.ofNat items.length ≠ 0) : items ≠ [] := by
  rintro rfl
  exact h rfl

/-- **Segments framed as one entry** of a checkpoint, the last one or one that goes on. -/
def piece (segments : List Bytes) (startTime duration : UInt64) (flushpoint : Bool) : Bytes :=
  (Header.forPayload segments.flatten.length startTime duration flushpoint
    (UInt32.ofNat segments.length)).encode ++ segments.flatten

@[simp] theorem length_piece (segments : List Bytes) (startTime duration : UInt64)
    (flushpoint : Bool) :
    (piece segments startTime duration flushpoint).length =
      Header.length + segments.flatten.length := by
  simp [piece]

theorem whole_piece {segments : List Bytes} {startTime duration : UInt64} {flushpoint : Bool}
    (h : Header.length + segments.flatten.length < UInt64.size) :
    Whole (piece segments startTime duration flushpoint) := by
  have hs : sizeAt (piece segments startTime duration flushpoint) =
      (UInt64.ofNat (Header.length + segments.flatten.length)).toNat := by
    simp only [sizeAt, piece, Header.encode, Header.forPayload, List.append_assoc,
      Bytes.word64_ofWord64_append]
  refine ⟨?_, ?_⟩
  · rw [length_piece]
    exact Nat.le_add_right _ _
  · rw [hs, length_piece]
    exact UInt64.toNat_ofNat_of_lt' h

theorem header_piece {segments : List Bytes} {startTime duration : UInt64} {flushpoint : Bool}
    (h : Header.length + segments.flatten.length < UInt64.size) :
    ∃ header, Header.decode (piece segments startTime duration flushpoint) = .ok header ∧
      header.size.toNat = (piece segments startTime duration flushpoint).length ∧
      header.flushpoint = flushpoint := by
  refine ⟨_, Header.decode_encode_append _ _, ?_, rfl⟩
  rw [length_piece]
  exact UInt64.toNat_ofNat_of_lt' h

/-- **The entry is a run of segments under a header that says so.** -/
def Frames (e : Bytes) (run : List Bytes) (startTime : UInt64) (flushpoint : Bool) : Prop :=
  ∃ header : Header, Header.decode e = .ok header ∧ e.drop Header.length = run.flatten ∧
    e.length = Header.length + run.flatten.length ∧ header.size.toNat = e.length ∧
    header.segments.toNat = run.length ∧ header.startTime = startTime ∧
    header.flushpoint = flushpoint

/-- **What a writer frames is a frame**, as long as its size and its segment count are words. -/
theorem frames_piece {run : List Bytes} (startTime duration : UInt64) (flushpoint : Bool)
    (hsize : Header.length + run.flatten.length < UInt64.size) (hcount : run.length < UInt32.size) :
    Frames (piece run startTime duration flushpoint) run startTime flushpoint := by
  refine ⟨_, Header.decode_encode_append _ _, ?_, length_piece .., ?_, ?_, rfl, rfl⟩
  · exact List.drop_left' (Header.length_encode _)
  · rw [length_piece]
    exact UInt64.toNat_ofNat_of_lt' hsize
  · exact UInt32.toNat_ofNat_of_lt' hcount

end Entry

end TraceRecorder
