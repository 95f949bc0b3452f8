/-
# What entries yield, in whatever order

Drains, pools and sinks do not keep entries in the order in which they were published, but no reader
that only asks for constants can tell.  An entry is `Readable` if it describes some relations, and
`Entry.constantsOf` are the constants that a walk finds in it.  Entries yield constants (`Yields`)
if all of them can be read and these are the constants that are found, in whatever order:

* `Yields.of_spans`: the entries of a checkpoint yield the constants of its relations;
* `walk_flatten`: a row of readable entries is read without damage, and yields what its entries do.
-/
import Mathlib.Data.List.Forall2
import TraceRecorder.Proofs.Tables

namespace TraceRecorder

namespace Entry

/-! ## 1. Readable entries -/

/-- The bytes are an entry of some relations. -/
def Readable (e : Bytes) : Prop := ∃ relations, Describes e relations

/-- The constants that a walk finds in an entry. -/
def constantsOf (e : Bytes) : List Constant := (walk e).toOption.getD []

theorem Describes.constantsOf_eq {e : Bytes} {relations : List Relation}
    (h : Describes e relations) : constantsOf e = relations.flatMap Relation.constants := by
  obtain ⟨hwalk, -⟩ := walk_of_describes (.cons h .nil)
  rw [List.flatten_singleton, List.flatten_singleton] at hwalk
  rw [constantsOf, hwalk]
  rfl

variable {es es' : List Bytes} {constants constants' : List Constant}

/-- **A row of readable entries is read without damage**, and yields what its entries do. -/
theorem walk_flatten (h : ∀ e ∈ es, Readable e) :
    walk es.flatten = .ok (es.flatMap constantsOf) ∧
      (∃ summary, Summary.ofChunk es.flatten = .ok summary) ∧
      ∃ table, ConstantTable.ofChunk es.flatten = .ok table := by
  obtain ⟨rows, hrows, hconstants⟩ : ∃ rows, List.Forall₂ Describes es rows ∧
      rows.flatten.flatMap Relation.constants = es.flatMap constantsOf := by
    induction es with
    | nil => exact ⟨[], .nil, rfl⟩
    | cons e es ih =>
      obtain ⟨relations, he⟩ := h e List.mem_cons_self
      obtain ⟨rows, hrows, hconstants⟩ := ih fun x hx => h x (List.mem_cons_of_mem _ hx)
      refine ⟨relations :: rows, .cons he hrows, ?_⟩
      rw [List.flatten_cons, List.flatMap_append, hconstants, List.flatMap_cons, he.constantsOf_eq]
  obtain ⟨hwalk, hreaders⟩ := walk_of_describes hrows
  exact ⟨by rw [hwalk, hconstants], hreaders⟩

/-! ## 2. What entries yield -/

/-- **All entries can be read, and these are their constants**, in whatever order. -/
structure Yields (es : List Bytes) (constants : List Constant) : Prop where
  readable : ∀ e ∈ es, Readable e
  perm : (es.flatMap constantsOf).Perm constants

namespace Yields

theorem nil : Yields [] [] := ⟨fun _ he => absurd he List.not_mem_nil, .refl _⟩

theorem append (h : Yields es constants) (h' : Yields es' constants') :
    Yields (es ++ es') (constants ++ constants') where
  readable e he := (List.mem_append.1 he).elim (h.readable e) (h'.readable e)
  perm := by
    rw [List.flatMap_append]
    exact h.perm.append h'.perm

theorem of_perm (h : Yields es constants) (he : es'.Perm es) (hc : constants.Perm constants') :
    Yields es' constants' where
  readable e hmem := h.readable e (he.mem_iff.1 hmem)
  perm := ((he.flatMap_right _).trans h.perm).trans hc

theorem of_describes {e : Bytes} {relations : List Relation} (h : Describes e relations) :
    Yields [e] (relations.flatMap Relation.constants) where
  readable e' he := (List.mem_singleton.1 he) ▸ ⟨relations, h⟩
  perm := by rw [List.flatMap_singleton, h.constantsOf_eq]

/-- **A checkpoint yields the constants of its relations**, also of those that have none. -/
theorem of_spans {relations : List Relation}
    (h : Spans es (relations.filter fun relation => !relation.isEmpty)) :
    Yields es (relations.flatMap Relation.constants) := by
  obtain ⟨rows, hrows, hflatten⟩ := h.rows
  rw [← Relation.flatMap_constants_filter, ← hflatten]
  clear h hflatten
  induction hrows with
  | nil => exact nil
  | cons he _ ih =>
    rw [List.flatten_cons, List.flatMap_append]
    exact (of_describes he).append ih

end Yields

end Entry

end TraceRecorder
