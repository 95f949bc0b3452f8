/-
# Threads and their groups

A chunk describes its threads if each thread constant of its table can be read and the group that
it names has a constant in the same table (`DescribesThreads`).  Thread and group may stand in
different segments and different entries, so what counts are all constants of the chunk together.

Some constants are `Grouped` if of each thread that they describe the group is among them, or is the
group that all virtual threads share.  That holds of what a recorder writes of a thread or of all
threads, and of whatever is put together from constants of which it holds:

* `Grouped.relations`, `Grouped.simplified`, `Grouped.table`: the ways to describe threads;
* `Grouped.of_foreign`: constants of other types are no matter;
* `Grouped.describesThreads`: a row of entries with such constants describes its threads, if the
  shared group is there too.
-/
import TraceRecorder.Proofs.Chunk.Fields
import TraceRecorder.Proofs.Chunk.Resolution
import TraceRecorder.Proofs.Chunk.Yields

namespace TraceRecorder

/-! ## 1. Constants with their groups -/

def HasGroup (cs : List Constant) (groupId : UInt64) : Prop :=
  ∃ value, (ConstantType.threadGroup, groupId, value) ∈ cs

/-- **Each thread constant can be read**, and its group has a constant or is the shared one. -/
def Grouped (cs : List Constant) : Prop :=
  ∀ id value, (ConstantType.thread, id, value) ∈ cs →
    ∃ record, ThreadRecord.decode id value = .ok record ∧
      (record.groupId = virtualGroupId ∨ HasGroup cs record.groupId)

/-- The value has a length that a word can hold. -/
def Constant.Short (c : Constant) : Prop := c.2.2.length < UInt32.size

theorem HasGroup.mono {cs cs' : List Constant} {groupId : UInt64} (h : HasGroup cs groupId)
    (hsub : cs ⊆ cs') : HasGroup cs' groupId :=
  h.imp fun _ hmem => hsub hmem

namespace Grouped

variable {cs cs' : List Constant}

/-- **Constants of other types are no matter.** -/
theorem of_foreign (h : ∀ c ∈ cs, c.1 ≠ ConstantType.thread) : Grouped cs :=
  fun _ _ hmem => absurd rfl (h _ hmem)

theorem append (h : Grouped cs) (h' : Grouped cs') : Grouped (cs ++ cs') := by
  intro id value hmem
  rcases List.mem_append.1 hmem with hmem | hmem
  · obtain ⟨record, hrecord, hgroup⟩ := h id value hmem
    exact ⟨record, hrecord, hgroup.imp_right fun hg => hg.mono (List.subset_append_left ..)⟩
  · obtain ⟨record, hrecord, hgroup⟩ := h' id value hmem
    exact ⟨record, hrecord, hgroup.imp_right fun hg => hg.mono (List.subset_append_right ..)⟩

theorem of_perm (h : Grouped cs) (hp : cs.Perm cs') : Grouped cs' := by
  intro id value hmem
  obtain ⟨record, hrecord, hgroup⟩ := h id value (hp.mem_iff.2 hmem)
  exact ⟨record, hrecord, hgroup.imp_right fun hg => hg.mono hp.subset⟩

/-- **A thread and its group.** -/
theorem relations (info : ThreadInfo) (id : ThreadId) (carrier : Option ThreadId)
    (hs : ∀ c ∈ (info.relations id carrier).flatMap Relation.constants, c.Short) :
    Grouped ((info.relations id carrier).flatMap Relation.constants) := by
  intro id' value hmem
  obtain ⟨rfl, rfl⟩ : id' = id ∧ value = info.value carrier := by
    simpa [ThreadInfo.relations, Relation.constants, ConstantType.thread,
      ConstantType.threadGroup] using hmem
  exact ⟨_, ThreadRecord.decode_threadValue _ _ _ _ _ _ (hs _ hmem),
    .inr ⟨ThreadInfo.groupValue info.groupName, by
      simp [ThreadInfo.relations, Relation.constants, ThreadRecord.written]⟩⟩

theorem checkpointRelations (thread : ThreadInfo) (id : Option ThreadId)
    (mounted : Option ThreadInfo)
    (hs : ∀ c ∈ (thread.checkpointRelations id mounted).flatMap Relation.constants, c.Short) :
    Grouped ((thread.checkpointRelations id mounted).flatMap Relation.constants) := by
  cases mounted with
  | none => exact relations _ _ _ hs
  | some v => exact relations _ _ _ hs

/-- **A virtual thread by its id alone** has the shared group. -/
theorem simplified (id : ThreadId) :
    Grouped ([ThreadInfo.simplified id].flatMap Relation.constants) := by
  intro id' value hmem
  obtain ⟨rfl, rfl⟩ : id' = id ∧ value = ThreadInfo.threadValue 0 "" virtualGroupId true none := by
    simpa [ThreadInfo.simplified, Relation.constants] using hmem
  exact ⟨_, ThreadRecord.decode_threadValue _ _ _ _ _ _ (by decide), .inl rfl⟩

/-- **All threads and their groups.** -/
theorem table (threads : List ThreadInfo)
    (hs : ∀ c ∈ (ThreadInfo.table threads).flatMap Relation.constants, c.Short) :
    Grouped ((ThreadInfo.table threads).flatMap Relation.constants) := by
  intro id value hmem
  have hshort := hs _ hmem
  rw [ThreadInfo.constants_table] at hmem ⊢
  -- A group constant is no thread constant, so the constant is that of a thread.
  have hthread : (ConstantType.thread, id, value) ∈ threads.map ThreadInfo.constant := by
    refine (List.mem_append.1 hmem).resolve_right fun hgroup => ?_
    obtain ⟨_, -, heq⟩ := List.mem_map.1 hgroup
    cases (congrArg Prod.fst heq :)
  obtain ⟨info, hinfo, heq⟩ := List.mem_map.1 hthread
  obtain ⟨rfl, rfl⟩ : info.id = id ∧ info.value none = value := by
    simpa [ThreadInfo.constant] using heq
  refine ⟨_, ThreadRecord.decode_threadValue _ _ _ _ _ _ hshort, .inr ?_⟩
  obtain ⟨group, hgroup, hid⟩ := List.mem_map.1 (ThreadInfo.mem_keys_groups.2 ⟨info, hinfo, rfl⟩)
  exact ⟨_, List.mem_append_right _ (List.mem_map.2 ⟨group, hgroup, by
    rw [ThreadInfo.groupConstant, hid]; rfl⟩)⟩

end Grouped

/-! ## 2. Chunks -/

theorem Entry.Readable.short {e : Bytes} (h : Entry.Readable e) :
    ∀ c ∈ Entry.constantsOf e, Constant.Short c := by
  obtain ⟨relations, hdescribes⟩ := h
  rw [hdescribes.constantsOf_eq]
  intro c hc
  obtain ⟨relation, hr, hc⟩ := List.mem_flatMap.1 hc
  obtain ⟨pair, hpair, rfl⟩ := List.mem_map.1 hc
  obtain ⟨entry, -, hcarries⟩ := hdescribes.views 0
  exact Nat.lt_of_le_of_lt (relation.sizes_le.2 pair hpair) (hcarries.size relation hr)

/-- **The chunk describes its threads**: a table of its constants can be made, all thread constants
in it can be read, and it has the group of each, and the one that virtual threads share. -/
def DescribesThreads (chunk : Bytes) : Prop :=
  ∃ table records, ConstantTable.ofChunk chunk = .ok table ∧ table.threads = .ok records ∧
    (∀ record ∈ records, (table.valueOf? ConstantType.threadGroup record.groupId).isSome) ∧
    (table.valueOf? ConstantType.threadGroup virtualGroupId).isSome

/-- **A row of entries describes its threads** if its constants are grouped and the shared group is
among them. -/
theorem Grouped.describesThreads {chunk : Bytes} (hrow : Entry.IsRow chunk)
    (hread : ∀ e ∈ Entry.split chunk, Entry.Readable e)
    (hg : Grouped ((Entry.split chunk).flatMap Entry.constantsOf))
    (hshared : HasGroup ((Entry.split chunk).flatMap Entry.constantsOf) virtualGroupId) :
    DescribesThreads chunk := by
  obtain ⟨hwalk, -, table, htable⟩ := Entry.walk_flatten hread
  rw [hrow] at hwalk htable
  obtain ⟨_, cs, -, hagrees⟩ := ConstantTable.agrees_of_ofChunk htable
  obtain rfl : (Entry.split chunk).flatMap Entry.constantsOf = cs :=
    Except.ok.inj (hwalk.symm.trans hagrees.walk)
  obtain rfl := hagrees.table
  obtain ⟨records, hrecords, hfrom⟩ := exists_mapM_eq_ok
    (f := fun pair : Pair => ThreadRecord.decode pair.1 pair.2) fun pair hpair =>
      (hg pair.1 pair.2 (ConstantTable.mem_of_mem_ofType hpair)).imp fun _ h => h.1
  refine ⟨_, records, htable, hrecords, fun record hmem => ?_,
    ConstantTable.isSome_valueOf?_withAll.2 hshared⟩
  obtain ⟨pair, hpair, hdecode⟩ := hfrom record hmem
  obtain ⟨record', hdecode', hgroup⟩ := hg _ _ (ConstantTable.mem_of_mem_ofType hpair)
  obtain rfl : record' = record := Except.ok.inj (hdecode'.symm.trans hdecode)
  rw [ConstantTable.isSome_valueOf?_withAll]
  rcases hgroup with heq | hgroup
  · exact heq ▸ hshared
  · exact hgroup

end TraceRecorder
