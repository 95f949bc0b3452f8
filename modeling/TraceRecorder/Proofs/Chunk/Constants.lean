/-
# Constants read back from a chunk

A recorder writes rows of entries that each frame some relations (`Entry.Describes`), and
`Entry.walk` gives the constants of just these relations, in their order:

* `Entry.Describes.views`: what frames some relations is an entry that carries them;
* `Entry.Carries.segments_eq` and `Entry.Carries.found_eq`: they are what is found in it;
* `Entry.walk_of_describes`: so a row of such entries is read without damage, and its summary and
  its table of constants can be made;
* `Entry.Spans.walk` and `Entry.Spans.tables`: the entries of one checkpoint give the constants of
  its relations, and segment by segment its relations themselves.

Numbers in a segment are 32-bit words, so all this needs entries of fewer than 2 ^ 32 bytes.
-/
import Mathlib.Data.List.Forall2
import TraceRecorder.Proofs.Chunk.Readers

namespace TraceRecorder

/-- The constants of a relation, in their order. -/
def Relation.constants (r : Relation) : List Constant := r.pairs.map fun pair => (r.typeId, pair)

/-- The type of a segment, and the pairs that are found in it. -/
def Segment.table (s : Segment) : UInt64 × List Pair := (s.typeId, s.pairs.items)

namespace Entry

/-- **The segments of a chunk**, each with its type and the pairs that are found in it. -/
def tables (chunk : Bytes) : List (UInt64 × List Pair) :=
  (readAll chunk).items.flatMap fun entry => entry.segments.items.map Segment.table

/-! ## 1. Entries -/

/-- **The bytes are an entry of some relations**, short enough for its numbers to be 32-bit
words. -/
def Describes (e : Bytes) (relations : List Relation) : Prop :=
  e.length < UInt32.size ∧
    ∃ startTime flushpoint, Frames e (relations.map Relation.encode) startTime flushpoint

/-- The entry as a reader finds it has the relations in its payload. -/
structure Carries (entry : Entry) (relations : List Relation) : Prop where
  count : entry.header.segments.toNat = relations.length
  payload : entry.payload = (relations.map Relation.encode).flatten
  size : ∀ r ∈ relations, r.body.length < UInt32.size

namespace Carries

variable {entry : Entry} {relations : List Relation}

theorem segments_eq (h : entry.Carries relations) :
    entry.segments = ⟨relations.map Relation.segment, none⟩ := by
  have hread := Relation.readAll_encode h.size 0 []
  rwa [List.append_nil, ← h.payload, ← h.count] at hread

theorem nested (h : entry.Carries relations) : entry.Nested := by
  rw [nested_iff, h.segments_eq]
  refine ⟨rfl, fun s hs => ?_⟩
  obtain ⟨r, hr, rfl⟩ := List.mem_map.1 hs
  rw [Relation.pairs_segment (h.size r hr)]

/-- **The constants found in an entry are those of its relations.** -/
theorem found_eq (h : entry.Carries relations) :
    entry.found = relations.flatMap Relation.constants := by
  rw [found, h.segments_eq, List.flatMap_map, List.flatMap_def, List.flatMap_def]
  refine congrArg List.flatten (List.map_congr_left fun r hr => ?_)
  rw [Segment.found, Relation.pairs_segment (h.size r hr)]
  rfl

/-- **Its segments tell its relations.** -/
theorem tables_eq (h : entry.Carries relations) : entry.segments.items.map Segment.table =
    relations.map fun r => (r.typeId, r.pairs) := by
  rw [h.segments_eq, List.map_map]
  refine List.map_congr_left fun r hr => ?_
  rw [Function.comp_apply, Segment.table, Relation.pairs_segment (h.size r hr)]
  rfl

end Carries

/-- **What frames some relations is an entry that carries them.** -/
theorem Describes.views {e : Bytes} {relations : List Relation} (h : Describes e relations)
    (offset : Nat) : ∃ entry : Entry, entry.Views offset e ∧ entry.Carries relations := by
  obtain ⟨hsmall, startTime, flushpoint, hframes⟩ := h
  obtain ⟨entry, hviews, hpayload, hcount, -⟩ := hframes.views offset
  refine ⟨entry, hviews, by rw [hcount, List.length_map], hpayload, fun r hr => ?_⟩
  have hmem : r.encode ∈ relations.map Relation.encode := List.mem_map.2 ⟨r, hr, rfl⟩
  have hpart := (List.sublist_flatten_of_mem hmem).length_le
  rw [← hviews.bytes, length_encode, hpayload] at hsmall
  rw [Relation.length_encode] at hpart
  omega

theorem nested_of_carries {entries : List Entry} {rows : List (List Relation)}
    (h : List.Forall₂ Carries entries rows) :
    (∀ e ∈ entries, e.Nested) ∧
      entries.flatMap found = rows.flatten.flatMap Relation.constants ∧
      (entries.flatMap fun e => e.segments.items.map Segment.table) =
        rows.flatten.map fun r => (r.typeId, r.pairs) := by
  induction h with
  | nil => exact ⟨by simp, rfl, rfl⟩
  | cons he _ ih =>
    obtain ⟨hnested, hfound, htables⟩ := ih
    refine ⟨List.forall_mem_cons.2 ⟨he.nested, hnested⟩, ?_, ?_⟩
    · rw [List.flatMap_cons, List.flatten_cons, List.flatMap_append, he.found_eq, hfound]
    · rw [List.flatMap_cons, List.flatten_cons, List.map_append, he.tables_eq, htables]

/-- **A row of entries of some relations is nested**, and tells these relations in order. -/
theorem tables_of_describes {es : List Bytes} {rows : List (List Relation)}
    (h : List.Forall₂ Describes es rows) : AllOf Nested es.flatten ∧
      (readAll es.flatten).items.flatMap found = rows.flatten.flatMap Relation.constants ∧
      tables es.flatten = rows.flatten.map fun r => (r.typeId, r.pairs) := by
  obtain ⟨entries, hlaid, rfl, hcarries⟩ := exists_laid (fun _ _ he => he.views) h 0
  obtain ⟨hall, hfound, htables⟩ := nested_of_carries hcarries
  rw [tables, ← List.flatMap_def, hlaid.readAll_eq]
  exact ⟨⟨entries, hlaid, rfl, hall⟩, hfound, htables⟩

/-- **What a recorder writes is read back**: the walk over a row of entries gives the constants of
their relations, in order, and the row has a summary and a table of constants. -/
theorem walk_of_describes {es : List Bytes} {rows : List (List Relation)}
    (h : List.Forall₂ Describes es rows) :
    walk es.flatten = .ok (rows.flatten.flatMap Relation.constants) ∧
      (∃ summary, Summary.ofChunk es.flatten = .ok summary) ∧
      ∃ table, ConstantTable.ofChunk es.flatten = .ok table := by
  obtain ⟨hnested, hfound, -⟩ := tables_of_describes h
  have htable := ConstantTable.ofChunk_eq_ok_iff.2 ⟨hnested, rfl⟩
  obtain ⟨summary, -, hsummary, -⟩ := ConstantTable.agrees_of_ofChunk htable
  exact ⟨walk_eq_ok_iff.2 ⟨hnested, hfound.symm⟩, ⟨summary, hsummary⟩, ⟨_, htable⟩⟩

/-! ## 2. Checkpoints -/

/-- **One checkpoint of some relations**: entries that are cut off as flushpoints, and a last one.
Each of them frames the next few relations, and at least one. -/
inductive Checkpoint (startTime : UInt64) : List Bytes → List Relation → Prop
  | last {e : Bytes} {run : List Relation} (hsize : e.length < UInt32.size)
      (hframe : Frames e (run.map Relation.encode) startTime false) (hrun : run ≠ []) :
      Checkpoint startTime [e] run
  | cut {e : Bytes} {run : List Relation} {es : List Bytes} {relations : List Relation}
      (hsize : e.length < UInt32.size)
      (hframe : Frames e (run.map Relation.encode) startTime true) (hrun : run ≠ [])
      (rest : Checkpoint startTime es relations) :
      Checkpoint startTime (e :: es) (run ++ relations)

/-- **The beginning of a checkpoint**: entries that are cut off as flushpoints, and no last one. -/
inductive Beginning (startTime : UInt64) : List Bytes → List Relation → Prop
  | none : Beginning startTime [] []
  | cut {e : Bytes} {run : List Relation} {es : List Bytes} {relations : List Relation}
      (hsize : e.length < UInt32.size)
      (hframe : Frames e (run.map Relation.encode) startTime true) (hrun : run ≠ [])
      (rest : Beginning startTime es relations) :
      Beginning startTime (e :: es) (run ++ relations)

/-- **The entries are the checkpoint of some relations**, or there are neither. -/
def Spans (es : List Bytes) (relations : List Relation) : Prop :=
  (es = [] ∧ relations = []) ∨ ∃ startTime, Checkpoint startTime es relations

theorem Checkpoint.rows {startTime : UInt64} {es : List Bytes} {relations : List Relation}
    (h : Checkpoint startTime es relations) :
    ∃ rows, List.Forall₂ Describes es rows ∧ rows.flatten = relations := by
  induction h with
  | @last e run hsize hframe =>
    exact ⟨[run], .cons ⟨hsize, _, _, hframe⟩ .nil, List.flatten_singleton⟩
  | @cut e run es relations hsize hframe _ _ ih =>
    obtain ⟨rows, hrows, hflatten⟩ := ih
    exact ⟨run :: rows, .cons ⟨hsize, _, _, hframe⟩ hrows, by rw [List.flatten_cons, hflatten]⟩

theorem Beginning.rows {startTime : UInt64} {es : List Bytes} {relations : List Relation}
    (h : Beginning startTime es relations) :
    ∃ rows, List.Forall₂ Describes es rows ∧ rows.flatten = relations := by
  induction h with
  | none => exact ⟨[], .nil, rfl⟩
  | @cut e run es relations hsize hframe _ _ ih =>
    obtain ⟨rows, hrows, hflatten⟩ := ih
    exact ⟨run :: rows, .cons ⟨hsize, _, _, hframe⟩ hrows, by rw [List.flatten_cons, hflatten]⟩

theorem Spans.rows {es : List Bytes} {relations : List Relation} (h : Spans es relations) :
    ∃ rows, List.Forall₂ Describes es rows ∧ rows.flatten = relations := by
  rcases h with ⟨rfl, rfl⟩ | ⟨_, h⟩
  · exact ⟨[], .nil, rfl⟩
  · exact h.rows

/-- **The constants of a checkpoint are those of its relations.** -/
theorem Spans.walk {es : List Bytes} {relations : List Relation} (h : Spans es relations) :
    walk es.flatten = .ok (relations.flatMap Relation.constants) := by
  obtain ⟨rows, hrows, rfl⟩ := h.rows
  exact (walk_of_describes hrows).1

/-- **The segments of a checkpoint are its relations**, in order. -/
theorem Spans.tables {es : List Bytes} {relations : List Relation} (h : Spans es relations) :
    AllOf Nested es.flatten ∧
      Entry.tables es.flatten = relations.map fun r => (r.typeId, r.pairs) := by
  obtain ⟨rows, hrows, rfl⟩ := h.rows
  obtain ⟨hnested, -, htables⟩ := tables_of_describes hrows
  exact ⟨hnested, htables⟩

/-- **The segments of a checkpoint that is cut short** are the relations that were cut off. -/
theorem Beginning.tables {startTime : UInt64} {es : List Bytes} {relations : List Relation}
    (h : Beginning startTime es relations) :
    AllOf Nested es.flatten ∧
      Entry.tables es.flatten = relations.map fun r => (r.typeId, r.pairs) := by
  obtain ⟨rows, hrows, rfl⟩ := h.rows
  obtain ⟨hnested, -, htables⟩ := tables_of_describes hrows
  exact ⟨hnested, htables⟩

theorem Spans.eq_nil_iff {es : List Bytes} {relations : List Relation} (h : Spans es relations) :
    es = [] ↔ relations = [] := by
  rcases h with ⟨rfl, rfl⟩ | ⟨_, h⟩
  · exact iff_of_true rfl rfl
  · cases h with
    | last _ _ hrun => simp [hrun]
    | cut _ _ hrun => simp [hrun]

end Entry

end TraceRecorder
