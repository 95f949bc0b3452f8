/-
# The registry and the list

The registry of waiting constants divides them into rows by type, and `TypeSet` is the list that is
not divided.  `TypeSet.rows` divides it, and every operation of the registry is the one of the list:

* `TypeRegistry.rows_register`, `TypeRegistry.rows_purge`: the rows afterwards are those of the list
  afterwards;
* `TypeRegistry.size_eq`, `TypeRegistry.relations_eq`: so are the answers.

`TypeRegistry.refines` says it of every row of calls, from the empty registry on.
-/
import Mathlib.Algebra.GroupWithZero.Nat
import TraceRecorder.Proofs.Chunk.RoundTrip
import TraceRecorder.Proofs.Tables
import TraceRecorder.TypeRegistry

namespace TraceRecorder

/-! ## 1. The list in rows -/

namespace TypeSet

variable {s : TypeSet} {typeId : UInt64}

/-- The constants of one type, in the order of registration. -/
def row (s : TypeSet) (typeId : UInt64) : List WaitingConstant :=
  (s.filter fun c => c.typeId == typeId).map PendingConstant.waiting

/-- **The list in rows**, one for each type that occurs. -/
def rows (s : TypeSet) : TypeRows :=
  (ascending (s.map PendingConstant.typeId)).map fun typeId => (typeId, s.row typeId)

theorem row_eq_nil_iff : s.row typeId = [] ↔ ∀ c ∈ s, c.typeId ≠ typeId := by
  simp [row, List.filter_eq_nil_iff]

theorem keys_rows (s : TypeSet) : s.rows.keys = ascending (s.map PendingConstant.typeId) := by
  simp [rows, Dict.keys, Function.comp_def]

theorem ordered_rows (s : TypeSet) : Dict.Ordered s.rows := by
  rw [Dict.Ordered.iff_keys, keys_rows]
  exact Dict.Ordered.iff_keys.1 (ordered_ascending _ [] .nil).1

/-- **A row is found** if it is not empty. -/
theorem find?_rows (s : TypeSet) (typeId : UInt64) :
    Dict.find? s.rows typeId = if s.row typeId = [] then none else some (s.row typeId) := by
  have hkey : typeId ∈ s.rows.keys ↔ ¬ s.row typeId = [] := by
    rw [keys_rows, mem_ascending, row_eq_nil_iff]
    simp
  by_cases h : s.row typeId = []
  · rw [if_pos h, ← Option.not_isSome_iff_eq_none, ← s.ordered_rows.mem_keys_iff, hkey]
    exact not_not.2 h
  · obtain ⟨pair, hpair, rfl⟩ := List.mem_map.1 (hkey.2 h)
    obtain ⟨typeId, -, rfl⟩ := List.mem_map.1 hpair
    rw [if_neg h, s.ordered_rows.find?_of_mem hpair]

/-- **Rows are those of a list** if in each of them its constants are found. -/
theorem rows_eq_iff {rows : TypeRows} (h : Dict.Ordered rows) :
    rows = s.rows ↔ ∀ typeId,
      Dict.find? rows typeId = if s.row typeId = [] then none else some (s.row typeId) := by
  constructor
  · rintro rfl typeId
    exact s.find?_rows typeId
  · intro hfind
    exact h.ext s.ordered_rows fun typeId => (hfind typeId).trans (s.find?_rows typeId).symm

/-! ## 2. Purges of the list -/

theorem purge_nil (s : TypeSet) : s.purge [] = s := by
  refine List.filter_eq_self.2 fun c _ => ?_
  simp [refersTo_eq]

theorem purgeCount_add (s : TypeSet) (classes : List ClassId) :
    s.purgeCount classes + (s.purge classes).length = s.length := by
  rw [purgeCount, purge, ← List.countP_eq_length_filter]
  simpa using (List.length_eq_countP_add_countP (refersTo classes) (l := s)).symm

variable {first second both : List ClassId}

/-- **Two purges are one** of the classes of both. -/
theorem purge_purge (s : TypeSet) (h : ∀ id, id ∈ both ↔ id ∈ first ∨ id ∈ second) :
    (s.purge first).purge second = s.purge both := by
  have hrefers : ∀ c, refersTo both c = (refersTo first c || refersTo second c) := by
    intro c
    cases hc : c.referent <;> simp [refersTo, hc, h]
  rw [purge, purge, purge, List.filter_filter]
  refine List.filter_congr fun c _ => ?_
  rw [hrefers, Bool.not_or, Bool.and_comm]

theorem purgeCount_purge (s : TypeSet) (h : ∀ id, id ∈ both ↔ id ∈ first ∨ id ∈ second) :
    s.purgeCount first + (s.purge first).purgeCount second = s.purgeCount both := by
  have hfirst := s.purgeCount_add first
  have hsecond := (s.purge first).purgeCount_add second
  have hboth := s.purgeCount_add both
  rw [purge_purge s h] at hsecond
  omega

end TypeSet

namespace TypeRegistry

variable {r : TypeRegistry} {s : TypeSet}

/-! ## 3. Registration -/

theorem row_register (s : TypeSet) (c : PendingConstant) (typeId : UInt64) :
    (s.register c).row typeId =
      if typeId = c.typeId then s.row typeId ++ [c.waiting] else s.row typeId := by
  by_cases h : typeId = c.typeId
  · simp [TypeSet.register, TypeSet.row, h]
  · simp [TypeSet.register, TypeSet.row, h, Ne.symm h]

/-- **A constant goes to the end of its row.** -/
theorem rows_register (h : r.rows = s.rows) (c : PendingConstant) :
    (r.register c).rows = (s.register c).rows := by
  have hordered : Dict.Ordered (r.register c).rows := by
    rw [register, h]
    exact s.ordered_rows.insert _ _
  refine (TypeSet.rows_eq_iff hordered).2 fun typeId => ?_
  rw [register, Dict.update, h, row_register]
  by_cases htype : typeId = c.typeId
  · subst htype
    rw [if_pos rfl, Dict.find?_insert_self, TypeSet.find?_rows]
    split <;> simp [*]
  · rw [if_neg htype, Dict.find?_insert_of_ne _ _ htype, TypeSet.find?_rows]

/-! ## 4. Answers -/

theorem foldl_add (row : List WaitingConstant) (relation : Relation) :
    row.foldl (fun relation c => relation.add c.key c.value) relation =
      { relation with pairs := relation.pairs ++ row.map fun c => (c.key, c.value) } := by
  induction row generalizing relation with
  | nil => simp
  | cons c row ih =>
    rw [List.foldl_cons, ih]
    simp [Relation.add]

/-- **The rows are written as the list is**: by ascending type, and within a type in the order of
registration. -/
theorem relations_eq (h : r.rows = s.rows) : r.relations = s.relations := by
  have hrows : (s.rows.filter fun row => !row.2.isEmpty) = s.rows := by
    refine List.filter_eq_self.2 fun row hrow => ?_
    have hfind := s.ordered_rows.find?_of_mem hrow
    rw [TypeSet.find?_rows] at hfind
    split at hfind
    · cases hfind
    · rename_i hne
      rw [← Option.some.inj hfind]
      simpa using hne
  rw [relations, h, hrows, TypeSet.rows, List.map_map, TypeSet.relations]
  refine List.map_congr_left fun typeId _ => ?_
  simp [relationOf, foldl_add, TypeSet.row, TypeSet.pairsOf, PendingConstant.waiting,
    Function.comp_def]

theorem sizeOf_eq_sum (rows : TypeRows) : sizeOf rows = (rows.values.map List.length).sum := rfl

theorem sizeOf_rows (s : TypeSet) : sizeOf s.rows = s.length := by
  have hlength := s.perm_constants.length_eq
  rw [List.length_map, List.length_flatMap, TypeSet.relations, List.map_map] at hlength
  rw [← hlength, sizeOf_eq_sum, Dict.values, TypeSet.rows, List.map_map, List.map_map]
  refine congrArg List.sum (List.map_congr_left fun typeId _ => ?_)
  simp [TypeSet.row, TypeSet.pairsOf, Relation.constants]

theorem size_eq (h : r.rows = s.rows) : r.size = s.length := by
  rw [size, h, sizeOf_rows]

/-! ## 5. Purges of the rows -/

theorem stays_waiting (classes : List ClassId) (c : PendingConstant) :
    c.waiting.stays classes = !TypeSet.refersTo classes c := by
  cases h : c.referent <;> simp [WaitingConstant.stays, PendingConstant.waiting,
    TypeSet.refersTo, h]

theorem row_purge (s : TypeSet) (classes : List ClassId) (typeId : UInt64) :
    (s.purge classes).row typeId = (s.row typeId).filter (WaitingConstant.stays classes) := by
  have hstays : WaitingConstant.stays classes ∘ PendingConstant.waiting =
      fun c => !TypeSet.refersTo classes c := funext (stays_waiting classes)
  rw [TypeSet.row, TypeSet.row, List.filter_map, hstays, TypeSet.purge, List.filter_comm]

/-- What is counted as removed, and what is left, is all that there was. -/
theorem purgeRows_count (classes : List ClassId) (removed : Nat) (rows : TypeRows) :
    (purgeRows classes removed rows).1 + sizeOf (purgeRows classes removed rows).2 =
      removed + sizeOf rows := by
  induction rows generalizing removed with
  | nil => rfl
  | cons row rows ih =>
    obtain ⟨typeId, row⟩ := row
    have hleft := row.length_filter_le (WaitingConstant.stays classes)
    have hrest := ih (removed + (row.length - (row.filter (WaitingConstant.stays classes)).length))
    rw [purgeRows]
    simp only [sizeOf_eq_sum, Dict.values, List.map_cons, List.sum_cons] at hrest ⊢
    split
    · rename_i hempty
      rw [List.isEmpty_iff.1 hempty] at hrest ⊢
      simp only [List.length_nil] at hrest ⊢
      omega
    · simp only [List.map_cons, List.sum_cons]
      omega

theorem keys_purgeRows (classes : List ClassId) (removed : Nat) (rows : TypeRows) :
    (purgeRows classes removed rows).2.keys.Sublist rows.keys := by
  induction rows generalizing removed with
  | nil => exact List.Sublist.refl _
  | cons row rows ih =>
    rw [purgeRows]
    simp only []
    split
    · exact (ih _).cons _
    · exact (ih _).cons_cons _

/-- **Of a row the constants are left that stay**, and of an emptied row nothing. -/
theorem find?_purgeRows {rows : TypeRows} (h : Dict.Ordered rows) (classes : List ClassId)
    (removed : Nat) (typeId : UInt64) :
    Dict.find? (purgeRows classes removed rows).2 typeId =
      (Dict.find? rows typeId).bind fun row =>
        let left := row.filter (WaitingConstant.stays classes)
        if left = [] then none else some left := by
  induction rows generalizing removed with
  | nil => rfl
  | cons row rows ih =>
    obtain ⟨typeId', row⟩ := row
    have hrest := ih (List.pairwise_cons.1 h).2
      (removed + (row.length - (row.filter (WaitingConstant.stays classes)).length))
    have hfirst : Dict.find? rows typeId' = none := Dict.find?_eq_none_of_ne h.ne_of_mem
    rw [purgeRows]
    by_cases htype : typeId = typeId'
    · subst htype
      rw [hfirst] at hrest
      rw [Dict.find?, if_pos rfl, Option.bind_some]
      generalize row.filter (WaitingConstant.stays classes) = left at hrest ⊢
      cases left with
      | nil => simpa using hrest
      | cons => simp [Dict.find?]
    · rw [Dict.find?, if_neg htype, ← hrest]
      generalize row.filter (WaitingConstant.stays classes) = left
      cases left with
      | nil => simp
      | cons => simp [Dict.find?, htype]

/-- **A purge leaves the rows of what it leaves of the list.** -/
theorem rows_purge (h : r.rows = s.rows) (classes : List ClassId) :
    (r.purge classes).2.rows = (s.purge classes).rows := by
  rw [purge]
  split
  · rename_i hnone
    rw [List.isEmpty_iff.1 hnone, TypeSet.purge_nil, h]
  · have hordered := s.ordered_rows.of_sublist (keys_purgeRows classes 0 s.rows)
    rw [h]
    refine (TypeSet.rows_eq_iff hordered).2 fun typeId => ?_
    rw [find?_purgeRows s.ordered_rows, TypeSet.find?_rows, row_purge]
    by_cases hrow : s.row typeId = [] <;> simp [hrow]

/-- **It counts what it takes out.** -/
theorem purge_count (h : r.rows = s.rows) (classes : List ClassId) :
    (r.purge classes).1 = s.purgeCount classes := by
  have hleft := s.purgeCount_add classes
  have hrows := rows_purge h classes
  rw [purge] at hrows ⊢
  split
  · rename_i hnone
    rw [List.isEmpty_iff.1 hnone, TypeSet.purge_nil] at hleft
    rw [List.isEmpty_iff.1 hnone]
    show 0 = s.purgeCount []
    omega
  · rename_i hsome
    have hcount := purgeRows_count classes 0 r.rows
    rw [if_neg hsome] at hrows
    have hsizes : sizeOf (purgeRows classes 0 r.rows).2 = (s.purge classes).length := by
      rw [← sizeOf_rows, ← hrows]
    rw [h, sizeOf_rows, ← h, hsizes] at hcount
    simp only []
    omega

end TypeRegistry

/-! ## 6. Calls -/

/-- A call of a registry. -/
inductive TypeCall where
  | register (c : PendingConstant)
  | size
  | snapshot
  | take
  | clear
  | purge (classes : List ClassId)

/-- What a call answers. -/
inductive TypeAnswer where
  | done
  | count (n : Nat)
  | relations (relations : List Relation)
  deriving DecidableEq

/-- A call of the registry. -/
def TypeRegistry.perform (r : TypeRegistry) : TypeCall → TypeAnswer × TypeRegistry
  | .register c => (.done, r.register c)
  | .size => (.count r.size, r)
  | .snapshot => (.relations r.relations, r)
  | .take => (.relations r.take.1, r.take.2)
  | .clear => (.count r.clear.1, r.clear.2)
  | .purge classes => (.count (r.purge classes).1, (r.purge classes).2)

/-- **A call of the list.**  What is registered goes to the end, a snapshot leaves all there, and a
purge leaves what refers to none of the classes. -/
def TypeSet.perform (s : TypeSet) : TypeCall → TypeAnswer × TypeSet
  | .register c => (.done, s ++ [c])
  | .size => (.count s.length, s)
  | .snapshot => (.relations s.relations, s)
  | .take => (.relations s.relations, [])
  | .clear => (.count s.length, [])
  | .purge classes => (.count (s.purgeCount classes), s.purge classes)

namespace TypeCall

/-- The answers to calls one after the other, and the state that these lead to. -/
def performAll {σ : Type} (perform : σ → TypeCall → TypeAnswer × σ) :
    σ → List TypeCall → List TypeAnswer × σ
  | state, [] => ([], state)
  | state, call :: calls =>
    let (answer, state) := perform state call
    let (answers, state) := performAll perform state calls
    (answer :: answers, state)

def registered : TypeCall → Nat
  | register _ => 1
  | _ => 0

/-- How many constants a call takes, by its answer. -/
def taken : TypeCall → TypeAnswer → Nat
  | take, .relations relations => (relations.map Relation.count).sum
  | _, _ => 0

/-- How many constants a call discards, by its answer. -/
def cleared : TypeCall → TypeAnswer → Nat
  | clear, .count n => n
  | _, _ => 0

/-- How many constants a call purges, by its answer. -/
def purged : TypeCall → TypeAnswer → Nat
  | purge _, .count n => n
  | _, _ => 0

end TypeCall

namespace TypeSet

variable {s : TypeSet}

theorem sum_count_relations (s : TypeSet) : (s.relations.map Relation.count).sum = s.length := by
  have hlength := s.perm_constants.length_eq
  rw [List.length_map, List.length_flatMap] at hlength
  rw [← hlength]
  refine congrArg List.sum (List.map_congr_left fun relation _ => ?_)
  rw [Relation.count, Relation.constants, List.length_map]

/-- **The balance of a call**: what comes in goes out or stays. -/
theorem balance (s : TypeSet) (call : TypeCall) :
    let (answer, s') := s.perform call
    s.length + call.registered =
      call.taken answer + call.cleared answer + call.purged answer + s'.length := by
  cases call with
  | register c => simp [perform, TypeCall.registered, TypeCall.taken, TypeCall.cleared,
      TypeCall.purged]
  | size => simp [perform, TypeCall.registered, TypeCall.taken, TypeCall.cleared, TypeCall.purged]
  | snapshot =>
    simp [perform, TypeCall.registered, TypeCall.taken, TypeCall.cleared, TypeCall.purged]
  | take =>
    simp [perform, TypeCall.registered, TypeCall.taken, TypeCall.cleared, TypeCall.purged,
      sum_count_relations]
  | clear => simp [perform, TypeCall.registered, TypeCall.taken, TypeCall.cleared, TypeCall.purged]
  | purge classes =>
    simp [perform, TypeCall.registered, TypeCall.taken, TypeCall.cleared, TypeCall.purged,
      purgeCount_add]

/-- **The balance of a row of calls.** -/
theorem balance_all (s : TypeSet) (calls : List TypeCall) :
    let (answers, s') := TypeCall.performAll perform s calls
    s.length + (calls.map TypeCall.registered).sum =
      (List.zipWith TypeCall.taken calls answers).sum +
        (List.zipWith TypeCall.cleared calls answers).sum +
        (List.zipWith TypeCall.purged calls answers).sum + s'.length := by
  induction calls generalizing s with
  | nil => simp [TypeCall.performAll]
  | cons call calls ih =>
    have hcall := s.balance call
    have hcalls := ih (s.perform call).2
    simp only [TypeCall.performAll, List.map_cons, List.zipWith_cons_cons, List.sum_cons]
      at hcall hcalls ⊢
    omega

/-- **The relations that are written of a list**: one for each type that occurs, types ascending,
with the pairs of the type in the order of registration, which are read back if their number of
bytes is one that a segment can announce. -/
structure GroupedInto (s : TypeSet) (relations : List Relation) : Prop where
  ascending : (relations.map Relation.typeId).Pairwise (· < ·)
  types : ∀ typeId, typeId ∈ relations.map Relation.typeId ↔ ∃ c ∈ s, c.typeId = typeId
  nonempty : ∀ relation ∈ relations, relation.pairs ≠ []
  pairs : ∀ relation ∈ relations, relation.pairs = s.pairsOf relation.typeId
  readBack : ∀ relation ∈ relations, relation.body.length < UInt32.size →
    ∃ segment : Segment, Segment.readAll 1 0 relation.encode = ⟨[segment], none⟩ ∧
      segment.ReadsAs relation

theorem groupedInto_relations (s : TypeSet) : s.GroupedInto s.relations := by
  have htypes : s.relations.map Relation.typeId = ascending (s.map PendingConstant.typeId) := by
    simp [relations, Function.comp_def]
  constructor
  · rw [htypes]
    exact pairwise_ascending _
  · intro typeId
    rw [htypes, mem_ascending]
    simp
  · intro relation hr
    rw [← s.filter_relations] at hr
    simpa [Relation.isEmpty] using (List.mem_filter.1 hr).2
  · intro relation hr
    obtain ⟨typeId, -, rfl⟩ := List.mem_map.1 hr
    rfl
  · intro relation _ hbody
    have hread := Relation.readAll_encode (List.forall_mem_singleton.2 hbody) 0 []
    rw [List.append_nil, List.map_singleton, List.flatten_singleton] at hread
    exact ⟨_, hread, Relation.readsAs_segment hbody⟩

end TypeSet

namespace TypeRegistry

variable {r : TypeRegistry} {s : TypeSet}

/-- **A call of the registry is one of the list**: it answers the same, and leaves the rows of what
the other leaves. -/
theorem perform_eq (h : r.rows = s.rows) (call : TypeCall) :
    (r.perform call).1 = (s.perform call).1 ∧
      (r.perform call).2.rows = TypeSet.rows (s.perform call).2 := by
  cases call with
  | register c => exact ⟨rfl, rows_register h c⟩
  | size => exact ⟨congrArg _ (size_eq h), h⟩
  | snapshot => exact ⟨congrArg _ (relations_eq h), h⟩
  | take => exact ⟨congrArg _ (relations_eq h), rfl⟩
  | clear => exact ⟨congrArg _ (size_eq h), rfl⟩
  | purge classes => exact ⟨congrArg _ (purge_count h classes), rows_purge h classes⟩

theorem performAll_eq (h : r.rows = s.rows) (calls : List TypeCall) :
    (TypeCall.performAll perform r calls).1 = (TypeCall.performAll TypeSet.perform s calls).1 ∧
      (TypeCall.performAll perform r calls).2.rows =
        TypeSet.rows (TypeCall.performAll TypeSet.perform s calls).2 := by
  induction calls generalizing r s with
  | nil => exact ⟨rfl, h⟩
  | cons call calls ih =>
    obtain ⟨hanswer, hrows⟩ := perform_eq h call
    obtain ⟨hanswers, hlast⟩ := ih hrows
    exact ⟨congr (congrArg _ hanswer) hanswers, hlast⟩

/-- **The registry refines the list.**  Whatever is called of an empty registry, it answers what the
list answers and ends with its rows.  So its size is the length of the list, its relations are those
that are written of the list, two purges are one of the classes of both, and the constants that were
registered are those that were taken, discarded or purged and those that wait.

The list has the waiting constants in the order of registration; the registry has a row for each
type, and none that is empty.  That the rows are those of the list is all that a call has to keep.
-/
theorem refines (calls : List TypeCall) :
    let (answers, r) := TypeCall.performAll perform {} calls
    let (answers', s) := TypeCall.performAll TypeSet.perform [] calls
    answers = answers' ∧ r.rows = s.rows ∧ r.size = s.length ∧
    r.relations = s.relations ∧ s.GroupedInto r.relations ∧
    (∀ first second both : List ClassId, (∀ id, id ∈ both ↔ id ∈ first ∨ id ∈ second) →
      r.purge both =
        ((r.purge first).1 + ((r.purge first).2.purge second).1,
          ((r.purge first).2.purge second).2)) ∧
    (calls.map TypeCall.registered).sum =
      (List.zipWith TypeCall.taken calls answers).sum +
        (List.zipWith TypeCall.cleared calls answers).sum +
        (List.zipWith TypeCall.purged calls answers).sum + r.size := by
  obtain ⟨hanswers, hrows⟩ := performAll_eq (r := {}) (s := []) rfl calls
  have hbalance := TypeSet.balance_all [] calls
  simp only [List.length_nil, Nat.zero_add] at hbalance
  have hrelations := relations_eq hrows
  refine ⟨hanswers, hrows, size_eq hrows, hrelations, ?_, ?_, ?_⟩
  · rw [hrelations]
    exact TypeSet.groupedInto_relations _
  · intro first second both h
    have hfirst := rows_purge hrows first
    refine Prod.ext ?_ (congrArg TypeRegistry.mk ?_)
    · rw [purge_count hrows, purge_count hrows, purge_count hfirst, TypeSet.purgeCount_purge _ h]
    · rw [rows_purge hrows, rows_purge hfirst, TypeSet.purge_purge _ h]
  · rw [hanswers, size_eq hrows, hbalance]

/-- Constants of two types, one between two of the other; both of these are purged, one by one. -/
theorem refines_two_types :
    let calls : List TypeCall := [.register ⟨5, 1, [1], some 7⟩, .register ⟨4, 2, [], none⟩,
      .register ⟨5, 3, [2], some 8⟩, .snapshot]
    let r := (TypeCall.performAll perform {} calls).2
    r.relations = [⟨4, [(2, [])]⟩, ⟨5, [(1, [1]), (3, [2])]⟩] ∧
    (∃ segment : Segment, segment.pairs.items = [(1, [1]), (3, [2])] ∧
      Segment.readAll 1 0 (Relation.encode ⟨5, [(1, [1]), (3, [2])]⟩) = ⟨[segment], none⟩) ∧
    (r.purge [8, 7]).1 = 2 ∧ ((r.purge [7]).2.purge [8]).2.rows = [(4, [⟨2, [], none⟩])] ∧
    (calls.map TypeCall.registered).sum = r.size := by
  intro calls r
  obtain ⟨-, -, -, -, hwritten, hpurge, hbalance⟩ := refines calls
  have hrelations : r.relations = [⟨4, [(2, [])]⟩, ⟨5, [(1, [1]), (3, [2])]⟩] := by decide
  have hunion : r.purge [8, 7] =
      ((r.purge [7]).1 + ((r.purge [7]).2.purge [8]).1, ((r.purge [7]).2.purge [8]).2) := by
    refine hpurge [7] [8] [8, 7] fun id => ?_
    simp [or_comm]
  obtain ⟨segment, hread, hsegment⟩ := hwritten.readBack ⟨5, [(1, [1]), (3, [2])]⟩
    (by change _ ∈ r.relations; simp [hrelations]) (by decide)
  refine ⟨hrelations, ⟨segment, by rw [hsegment.pairs], hread⟩, ?_, ?_, hbalance⟩
  · rw [hunion]
    decide
  · have hrows := congrArg (fun answer => answer.2.rows) hunion
    exact hrows.symm.trans (by decide)

end TypeRegistry

end TraceRecorder
