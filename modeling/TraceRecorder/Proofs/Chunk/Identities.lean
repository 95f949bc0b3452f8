/-
# Threads recognised by their constants

A thread's identity is two constants, its own and that of its group, which stand in one entry or in
two.  Bytes in which just these two are found identify the thread (`ThreadInfo.IdentifiedBy`): the
table has one thread with one group, the thread is read back as it was described, and so is the
group's name.  How the constants were framed, and which of them comes first, is of no account
(`Describable.identifiedBy`).

* `Entry.walk_of_legible`: entries that can be read alone can be read one behind the other;
* `EntryDraft.Fits.walk`: an entry that was written from relations is one of them;
* `Describable.toldBy`: so the entries of a checkpoint yield the two constants;
* `Describable.standalone`: and so does the entry that describes a thread outside any chunk.

What is described of a thread takes little more room than its name, so names of fewer than 2 ^ 31
bytes leave all lengths 32-bit words.  Of the carrier it is only asked that it is not the recorder's
own id, which stands for none.
-/
import Mathlib.Algebra.GroupWithZero.Nat
import TraceRecorder.Proofs.Chunk.RoundTrip
import TraceRecorder.Proofs.Chunk.Threads
import TraceRecorder.Proofs.Chunk.Values

namespace TraceRecorder

/-! ## 1. Entries read one behind the other -/

namespace Entry

/-- **Chunks that are put together yield the constants of both.** -/
theorem walk_append {front chunk : Bytes} {cs cs' : List Constant} (h : walk front = .ok cs)
    (h' : walk chunk = .ok cs') : walk (front ++ chunk) = .ok (cs ++ cs') := by
  obtain ⟨hfront, rfl⟩ := walk_eq_ok_iff.1 h
  obtain ⟨hchunk, rfl⟩ := walk_eq_ok_iff.1 h'
  have hread := readAll_append (allOf_iff.1 hfront).1 (allOf_iff.1 hchunk).1
  refine walk_eq_ok_iff.2 ⟨hfront.append (fun _ _ h => h) hchunk, ?_⟩
  rw [hread, List.flatMap_append, List.flatMap_map]
  rfl

/-- All that the bytes announce can be read, and so their constants are found. -/
def Legible (e : Bytes) : Prop := walk e = .ok (constantsOf e)

theorem legible_of_walk {e : Bytes} {cs : List Constant} (h : walk e = .ok cs) : Legible e := by
  rw [Legible, constantsOf, h]
  rfl

theorem constantsOf_of_walk {e : Bytes} {cs : List Constant} (h : walk e = .ok cs) :
    constantsOf e = cs := by
  rw [constantsOf, h]
  rfl

/-- **Entries that can each be read alone** can be read one behind the other. -/
theorem walk_of_legible {es : List Bytes} (h : ∀ e ∈ es, Legible e) :
    walk es.flatten = .ok (es.flatMap constantsOf) := by
  induction es with
  | nil =>
    have hnone : readAll [] = ⟨[], none⟩ := readFrom_nil 0
    rw [List.flatten_nil, walk, hnone]
    rfl
  | cons e es ih =>
    obtain ⟨he, hrest⟩ := List.forall_mem_cons.1 h
    rw [List.flatten_cons, List.flatMap_cons]
    exact walk_append he (ih hrest)

end Entry

namespace EntryDraft

variable {d : EntryDraft}

theorem Fits.readAll (h : d.Fits) :
    Entry.readAll d.encode = ⟨[⟨0, d.header, d.payload⟩], none⟩ := by
  have hviewed := h.viewed 0
  have hread := Entry.readAll_encode hviewed.offset hviewed.sound
  rwa [hviewed.bytes] at hread

/-- **A draft that fits yields the constants of its relations.** -/
theorem Fits.walk (h : d.Fits) :
    Entry.walk d.encode = .ok (d.relations.flatMap Relation.constants) := by
  have hcarries := h.carries 0
  have hall : Entry.AllOf Entry.Nested d.encode := by
    rw [Entry.allOf_iff, h.readAll]
    exact ⟨rfl, fun e he => List.mem_singleton.1 he ▸ hcarries.nested⟩
  refine Entry.walk_eq_ok_iff.2 ⟨hall, ?_⟩
  rw [h.readAll, List.flatMap_singleton, hcarries.found_eq]

/-- **The pieces of a checkpoint** of some relations: each is written from the next few, at least
one, and all but the last are flushpoints. -/
inductive Pieces (startTime : UInt64) : List EntryDraft → List Relation → Prop
  | last {d : EntryDraft} (time : d.startTime = startTime) (closes : d.flushpoint = false)
      (told : d.relations ≠ []) : Pieces startTime [d] d.relations
  | cut {d : EntryDraft} {ds : List EntryDraft} {relations : List Relation}
      (time : d.startTime = startTime) (goesOn : d.flushpoint = true) (told : d.relations ≠ [])
      (rest : Pieces startTime ds relations) :
      Pieces startTime (d :: ds) (d.relations ++ relations)

namespace Pieces

variable {startTime : UInt64} {ds : List EntryDraft} {relations : List Relation}

theorem flatMap_relations (h : Pieces startTime ds relations) :
    ds.flatMap EntryDraft.relations = relations := by
  induction h with
  | last => exact List.flatMap_singleton ..
  | cut _ _ _ _ ih => rw [List.flatMap_cons, ih]

/-- **Pieces of a few short relations fit**, wherever the checkpoint was cut. -/
theorem fits (h : Pieces startTime ds relations) (hcount : relations.length < UInt32.size)
    (hbodies : ∀ r ∈ relations, r.body.length < UInt32.size)
    (hsize : Header.length + (relations.map Relation.encode).flatten.length < UInt64.size) :
    ∀ d ∈ ds, d.Fits := by
  intro d hd
  obtain ⟨before, behind, rfl⟩ := List.append_of_mem hd
  have hall := h.flatMap_relations
  rw [List.flatMap_append, List.flatMap_cons] at hall
  subst hall
  simp only [List.length_append, List.map_append, List.flatten_append] at hcount hsize
  refine ⟨by omega, fun r hr => hbodies r (by simp [hr]), ?_⟩
  rw [length_encode, payload]
  omega

end Pieces

end EntryDraft

/-- **The entries are one checkpoint of some relations**, in as many pieces as it was cut into. -/
def Entry.Tell (startTime : UInt64) (es : List Bytes) (relations : List Relation) : Prop :=
  ∃ ds, EntryDraft.Pieces startTime ds relations ∧ ds.map EntryDraft.encode = es

theorem Entry.Tell.cons {d : EntryDraft} {es : List Bytes} {relations : List Relation}
    (goesOn : d.flushpoint = true) (told : d.relations ≠ [])
    (h : Entry.Tell d.startTime es relations) :
    Entry.Tell d.startTime (d.encode :: es) (d.relations ++ relations) := by
  obtain ⟨ds, hds, rfl⟩ := h
  exact ⟨d :: ds, .cut rfl goesOn told hds, rfl⟩

/-! ## 2. Constants that are assigned once -/

namespace ConstantTable

variable {t : ConstantTable} {cs : List Constant} {typeId key : UInt64} {value : Bytes}

/-- **Where all assignments of a constant agree** the table has what they assign. -/
theorem valueOf?_withAll_of_agree (h : (typeId, key, value) ∈ cs)
    (hall : ∀ c ∈ cs, c.id = ⟨typeId, key⟩ → c = (typeId, key, value)) :
    (withAll ∅ cs).valueOf? typeId key = some value := by
  obtain ⟨found, hfound⟩ := Option.isSome_iff_exists.1 (isSome_valueOf?_withAll.2 ⟨value, h⟩)
  obtain ⟨before, behind, hcs, -⟩ := valueOf?_withAll_eq_some_iff.1 hfound
  obtain ⟨⟩ := hall (typeId, key, found) (by simp [hcs]) rfl
  exact hfound

/-- **Where no constant is assigned twice the order is of no account**: the table has what was
assigned. -/
theorem valueOf?_withAll_of_nodup (h : (cs.map Constant.id).Nodup) :
    (withAll ∅ cs).valueOf? typeId key = some value ↔ (typeId, key, value) ∈ cs := by
  constructor
  · intro hvalue
    obtain ⟨before, behind, rfl, -⟩ := valueOf?_withAll_eq_some_iff.1 hvalue
    exact List.mem_append_right _ List.mem_cons_self
  · exact fun hmem => valueOf?_withAll_of_agree hmem fun c hc heq =>
      List.inj_on_of_nodup_map h hc hmem heq

theorem size_withAll_of_nodup (h : (cs.map Constant.id).Nodup) :
    (withAll ∅ cs).size = cs.length := by
  rw [(resolves_withAll cs).size, h.dedup, List.length_map]

/-- **A type of which one constant has a value** has just that one. -/
theorem ofType_eq_singleton
    (h : ∀ k v, t.valueOf? typeId k = some v ↔ k = key ∧ v = value) :
    t.ofType typeId = [(key, value)] := by
  have hmem : ∀ pair, pair ∈ t.ofType typeId ↔ pair = (key, value) := by
    rintro ⟨k, v⟩
    rw [mem_ofType_iff, h, Prod.mk.injEq]
  have hordered := t.pairwise_ofType typeId
  cases hall : t.ofType typeId with
  | nil => cases hall ▸ (hmem _).2 rfl
  | cons pair rest =>
    rw [hall] at hmem hordered
    obtain rfl := (hmem pair).1 List.mem_cons_self
    cases rest with
    | nil => rfl
    | cons pair' rest =>
      -- A second one would be the same, and not behind it.
      obtain rfl := (hmem pair').1 (List.mem_cons_of_mem _ List.mem_cons_self)
      exact absurd (List.rel_of_pairwise_cons hordered List.mem_cons_self) (UInt64.lt_irrefl _)

end ConstantTable

/-! ## 3. Identities -/

namespace ThreadInfo

/-- The thread that is described: the virtual thread if one is given. -/
def described (thread : ThreadInfo) (mounted : Option ThreadInfo) : ThreadInfo :=
  mounted.getD thread

/-- **What should be read of a thread**: the described one, under the id that is asked for, and with
`thread` as its carrier if it is virtual. -/
def record (thread : ThreadInfo) (id : Option ThreadId) (mounted : Option ThreadInfo) :
    ThreadRecord :=
  let info := thread.described mounted
  ⟨id.getD info.id, info.osId, info.name, info.groupId, info.isVirtual,
    mounted.map fun _ => thread.id⟩

def identity (thread : ThreadInfo) (id : Option ThreadId) (mounted : Option ThreadInfo) :
    List Constant :=
  (thread.checkpointRelations id mounted).flatMap Relation.constants

/-- **The names are not too long**, and a carrier has an id of its own. -/
structure Describable (thread : ThreadInfo) (mounted : Option ThreadInfo) : Prop where
  name : (Bytes.ofText (thread.described mounted).name).length < 2 ^ 31
  groupName : (Bytes.ofText (thread.described mounted).groupName).length < 2 ^ 31
  carrier : mounted.isSome → thread.id ≠ 0

instance (thread : ThreadInfo) (mounted : Option ThreadInfo) :
    Decidable (thread.Describable mounted) :=
  decidable_of_iff ((Bytes.ofText (thread.described mounted).name).length < 2 ^ 31 ∧
      (Bytes.ofText (thread.described mounted).groupName).length < 2 ^ 31 ∧
      (mounted.isSome → thread.id ≠ 0))
    ⟨fun ⟨hn, hg, hc⟩ => ⟨hn, hg, hc⟩, fun ⟨hn, hg, hc⟩ => ⟨hn, hg, hc⟩⟩

end ThreadInfo

/-- **The table tells of a thread and its group**, perhaps among others. -/
structure ConstantTable.TellsOf (t : ConstantTable) (record : ThreadRecord) (groupName : String) :
    Prop where
  thread : ∃ value, t.valueOf? ConstantType.thread record.id = some value ∧
    ThreadRecord.decode record.id value = .ok record
  group : ∃ value, t.valueOf? ConstantType.threadGroup record.groupId = some value ∧
    FieldReader.readEach [.word, .text] ⟨value, 0⟩ = [.ok (.word 0), .ok (.text groupName)]

/-- **The table has one thread and its group**, and nothing else. -/
structure ConstantTable.Identifies (t : ConstantTable) (record : ThreadRecord)
    (groupName : String) : Prop where
  size : t.size = 2
  thread : ∃ value, t.ofType ConstantType.thread = [(record.id, value)]
  threads : t.threads = .ok [record]
  group : ∃ value, t.ofType ConstantType.threadGroup = [(record.groupId, value)] ∧
    FieldReader.readEach [.word, .text] ⟨value, 0⟩ = [.ok (.word 0), .ok (.text groupName)]

namespace ThreadInfo

variable {thread : ThreadInfo} {id : Option ThreadId} {mounted : Option ThreadInfo}

/-- **The thread is identified by some bytes**: they yield its two constants, and their table has it
and its group. -/
structure IdentifiedBy (thread : ThreadInfo) (id : Option ThreadId) (mounted : Option ThreadInfo)
    (bytes : Bytes) : Prop where
  constants : ∃ cs, Entry.walk bytes = .ok cs ∧ cs.Perm (thread.identity id mounted)
  table : ∃ t, ConstantTable.ofChunk bytes = .ok t ∧
    t.Identifies (thread.record id mounted) (thread.described mounted).groupName

/-- **Some entries tell who the thread is**: they are one checkpoint of its relations, each can be
read alone, and what they yield are its two constants. -/
structure ToldBy (thread : ThreadInfo) (id : Option ThreadId) (mounted : Option ThreadInfo)
    (startTime : UInt64) (es : List Bytes) : Prop where
  tell : Entry.Tell startTime es (thread.checkpointRelations id mounted)
  legible : ∀ e ∈ es, Entry.Legible e
  constants : es.flatMap Entry.constantsOf = thread.identity id mounted

theorem checkpointRelations_eq (thread : ThreadInfo) (id : Option ThreadId)
    (mounted : Option ThreadInfo) :
    thread.checkpointRelations id mounted =
      (thread.described mounted).relations (id.getD (thread.described mounted).id)
        (mounted.map fun _ => thread.id) := by
  cases mounted <;> rfl

theorem identity_eq (thread : ThreadInfo) (id : Option ThreadId) (mounted : Option ThreadInfo) :
    thread.identity id mounted =
      [(ConstantType.thread, (thread.record id mounted).id,
          (thread.described mounted).value (mounted.map fun _ => thread.id)),
        (ConstantType.threadGroup, (thread.record id mounted).groupId,
          groupValue (thread.described mounted).groupName)] := by
  rw [identity, checkpointRelations_eq]
  rfl

theorem nodup_identity (thread : ThreadInfo) (id : Option ThreadId) (mounted : Option ThreadInfo) :
    ((thread.identity id mounted).map Constant.id).Nodup := by
  rw [identity_eq]
  simp [Constant.id, ConstantType.thread, ConstantType.threadGroup]

theorem length_checkpointRelations (thread : ThreadInfo) (id : Option ThreadId)
    (mounted : Option ThreadInfo) : (thread.checkpointRelations id mounted).length = 2 := by
  rw [checkpointRelations_eq]
  rfl

theorem isEmpty_checkpointRelations {relation : Relation}
    (h : relation ∈ thread.checkpointRelations id mounted) : relation.isEmpty = false := by
  rw [checkpointRelations_eq, relations] at h
  rcases List.mem_pair.1 h with rfl | rfl <;> rfl

theorem length_value (info : ThreadInfo) (carrier : Option ThreadId) :
    (info.value carrier).length = 29 + (Bytes.ofText info.name).length := by
  simp [value, threadValue, Field.encodeAll, Field.encode]
  omega

theorem length_groupValue (name : String) :
    (groupValue name).length = 12 + (Bytes.ofText name).length := by
  simp [groupValue, Field.encodeAll, Field.encode]
  omega

namespace Describable

/-- **The relations of a thread are short.** -/
theorem short (h : thread.Describable mounted) :
    ∀ r ∈ thread.checkpointRelations id mounted, r.body.length < 2 ^ 31 + 41 := by
  have hname := h.name
  have hgroup := h.groupName
  rw [checkpointRelations_eq]
  simp only [relations, List.forall_mem_cons, Relation.body, Relation.encodePair,
    List.length_append, Bytes.length_ofWord64, Bytes.length_digits, length_value,
    length_groupValue]
  exact ⟨by omega, by omega, List.forall_mem_nil _⟩

theorem length_encode_lt (h : thread.Describable mounted) :
    ∀ r ∈ thread.checkpointRelations id mounted, r.encode.length < 2 ^ 32 := by
  intro r hr
  have hshort := h.short r hr
  rw [Relation.length_encode, Segment.headerLength]
  omega

/-- Whatever pieces they are told in, the pieces fit. -/
theorem fits (h : thread.Describable mounted) {startTime : UInt64} {ds : List EntryDraft}
    (hds : EntryDraft.Pieces startTime ds (thread.checkpointRelations id mounted)) :
    ∀ d ∈ ds, d.Fits := by
  have hlengths : ∀ r ∈ thread.checkpointRelations id mounted, r.encode.length < 2 ^ 32 :=
    h.length_encode_lt
  have hsizes : UInt32.size = 2 ^ 32 ∧ UInt64.size = 2 ^ 64 := ⟨rfl, rfl⟩
  refine hds.fits ?_ (fun r hr => ?_) ?_
  · rw [length_checkpointRelations, hsizes.1]
    decide
  · have := h.short r hr
    omega
  · rw [checkpointRelations_eq, relations] at hlengths ⊢
    obtain ⟨hthread, hgroup, -⟩ := by simpa only [List.forall_mem_cons] using hlengths
    simp only [List.map_cons, List.map_nil, List.flatten_cons, List.flatten_nil,
      List.append_nil, List.length_append, Header.length]
    omega

/-- **A checkpoint of the relations yields the two constants**, wherever it was cut. -/
theorem toldBy (h : thread.Describable mounted) {startTime : UInt64} {es : List Bytes}
    (hes : Entry.Tell startTime es (thread.checkpointRelations id mounted)) :
    thread.ToldBy id mounted startTime es := by
  have htell := hes
  obtain ⟨ds, hds, rfl⟩ := hes
  have hfits := h.fits hds
  refine ⟨htell, fun e he => ?_, ?_⟩
  · obtain ⟨d, hd, rfl⟩ := List.mem_map.1 he
    exact Entry.legible_of_walk (hfits d hd).walk
  · rw [List.flatMap_map, identity, ← hds.flatMap_relations, List.flatMap_assoc]
    exact List.flatMap_congr fun d hd => Entry.constantsOf_of_walk (hfits d hd).walk

/-- A thread that has a carrier is read back with it. -/
theorem decode (h : thread.Describable mounted) :
    ThreadRecord.decode (thread.record id mounted).id
        ((thread.described mounted).value (mounted.map fun _ => thread.id)) =
      .ok (thread.record id mounted) := by
  have hname := h.name
  have hsize : UInt32.size = 2 ^ 32 := rfl
  have hlength := length_value (thread.described mounted) (mounted.map fun _ => thread.id)
  have hdecode := ThreadRecord.decode_threadValue (thread.record id mounted).id
    (thread.described mounted).osId (thread.described mounted).name
    (thread.described mounted).groupId (thread.described mounted).isVirtual
    (mounted.map fun _ => thread.id) (by rw [value] at hlength; omega)
  have hcarrier : (if (mounted.map fun _ => thread.id).getD 0 = 0 then none
      else mounted.map fun _ => thread.id) = mounted.map fun _ => thread.id := by
    cases mounted with
    | none => rfl
    | some v => exact if_neg (h.carrier rfl)
  rw [value, hdecode, ThreadRecord.written, hcarrier]
  rfl

theorem readEach_groupValue (h : thread.Describable mounted) :
    FieldReader.readEach [.word, .text]
        ⟨groupValue (thread.described mounted).groupName, 0⟩ =
      [.ok (.word 0), .ok (.text (thread.described mounted).groupName)] := by
  have hgroup := h.groupName
  have hsize : UInt32.size = 2 ^ 32 := rfl
  have hfits : ∀ f ∈ [Field.word 0, .text (thread.described mounted).groupName], f.Fits := by
    simp only [List.forall_mem_cons, Field.Fits]
    exact ⟨trivial, by omega, List.forall_mem_nil _⟩
  have hread := FieldReader.readEach_encodeAll hfits [] [] 0
  rwa [List.append_nil, List.append_nil] at hread

/-- **Where the two constants have their values**, the thread and its group are read back. -/
theorem tellsOf (h : thread.Describable mounted) {t : ConstantTable}
    (ht : ∀ c ∈ thread.identity id mounted, t.valueOf? c.1 c.2.1 = some c.2.2) :
    t.TellsOf (thread.record id mounted) (thread.described mounted).groupName := by
  simp only [identity_eq, List.forall_mem_cons] at ht
  exact ⟨⟨_, ht.1, h.decode⟩, _, ht.2.1, h.readEach_groupValue⟩

/-- **Where just the two constants are found, the thread is identified**, in whatever order. -/
theorem identifiedBy (h : thread.Describable mounted) {bytes : Bytes} {cs : List Constant}
    (hwalk : Entry.walk bytes = .ok cs) (hcs : cs.Perm (thread.identity id mounted)) :
    thread.IdentifiedBy id mounted bytes := by
  refine ⟨⟨cs, hwalk, hcs⟩, _, ConstantTable.ofChunk_eq_ok_iff.2
    ⟨(Entry.walk_eq_ok_iff.1 hwalk).1, rfl⟩, ?_⟩
  rw [← (Entry.walk_eq_ok_iff.1 hwalk).2]
  have hnodup : (cs.map Constant.id).Nodup :=
    (hcs.map Constant.id).nodup_iff.2 (nodup_identity thread id mounted)
  have hvalue (typeId key : UInt64) (value : Bytes) :
      (ConstantTable.withAll ∅ cs).valueOf? typeId key = some value ↔
        (typeId, key, value) ∈ thread.identity id mounted := by
    rw [ConstantTable.valueOf?_withAll_of_nodup hnodup, hcs.mem_iff]
  have hthread : (ConstantTable.withAll ∅ cs).ofType ConstantType.thread =
      [((thread.record id mounted).id,
        (thread.described mounted).value (mounted.map fun _ => thread.id))] := by
    refine ConstantTable.ofType_eq_singleton fun key value => (hvalue _ key value).trans ?_
    simp [identity_eq, ConstantType.thread, ConstantType.threadGroup]
  have hgroup : (ConstantTable.withAll ∅ cs).ofType ConstantType.threadGroup =
      [((thread.record id mounted).groupId,
        groupValue (thread.described mounted).groupName)] := by
    refine ConstantTable.ofType_eq_singleton fun key value => (hvalue _ key value).trans ?_
    simp [identity_eq, ConstantType.thread, ConstantType.threadGroup]
  refine ⟨?_, ⟨_, hthread⟩, ?_, _, hgroup, h.readEach_groupValue⟩
  · rw [ConstantTable.size_withAll_of_nodup hnodup, hcs.length_eq, identity_eq]
    rfl
  · rw [ConstantTable.threads, hthread, List.mapM_cons, List.mapM_nil, h.decode]
    rfl

end Describable

/-- **An entry of its own identifies a thread**: it is all that is read of its bytes, has the two
relations as segments and no other entry of the checkpoint behind it. -/
structure StandsAlone (thread : ThreadInfo) (id : Option ThreadId) (mounted : Option ThreadInfo)
    (bytes : Bytes) : Prop where
  entry : ∃ entry, Entry.readAll bytes = ⟨[entry], none⟩ ∧ entry.header.flushpoint = false ∧
    entry.header.segments = 2 ∧ entry.segments.damage = none ∧ entry.segments.items.length = 2
  identified : thread.IdentifiedBy id mounted bytes

/-- **A thread's entry outside any chunk** stands alone. -/
theorem Describable.standalone (h : thread.Describable mounted) (startTime duration : UInt64) :
    thread.StandsAlone id mounted (thread.standaloneEntry id mounted startTime duration) := by
  let d : EntryDraft := ⟨startTime, duration, false, thread.checkpointRelations id mounted⟩
  have hlength := thread.length_checkpointRelations id mounted
  have hbytes : thread.standaloneEntry id mounted startTime duration = d.encode := by
    rw [standaloneEntry, Entry.frame, List.length_map]
    rfl
  have hpieces : EntryDraft.Pieces startTime [d] d.relations :=
    .last rfl rfl (List.ne_nil_of_length_eq_add_one hlength)
  have hfits : d.Fits := h.fits hpieces d List.mem_cons_self
  have hsegments := (hfits.carries 0).segments_eq
  rw [hbytes]
  refine ⟨⟨_, hfits.readAll, rfl, ?_, ?_, ?_⟩, h.identifiedBy hfits.walk (.refl _)⟩
  · show UInt32.ofNat (thread.checkpointRelations id mounted).length = 2
    rw [hlength]
    rfl
  · rw [hsegments]
  · rw [hsegments, List.length_map]
    exact hlength

end ThreadInfo

end TraceRecorder
