/-
# What a chunk of a plan is filled with

A worker writes one checkpoint about itself, one for each of its own, and two for each virtual
thread, whatever becomes of them (`Plan.adding_work`).  With a single worker a chunk has these, and
three more that the rotation writes: the static constants, the worker's thread, and the six classes
that are not unloaded before.

* `Plan.Ready.answers_fillChunk`: so a chunk is filled, and the recorder is ready for the next one.

Everything that is written has a size that can be addressed.  Memory for the payload was granted,
and the texts are short because the numbers in them are 64-bit words.
-/
import Mathlib.Algebra.Order.BigOperators.Group.List
import Mathlib.Algebra.Order.Ring.Nat
import TraceRecorder.Proofs.Recorder.Fillings
import TraceRecorder.Workload.Worker

namespace TraceRecorder

open Fallible (Answers Ends)
open Recorder (Adding Adds Idle Fills)

/-! ## 1. Sizes -/

namespace Bytes

theorem length_ofText (s : String) : (ofText s).length = s.utf8ByteSize := by
  rw [← String.size_toByteArray]
  rfl

theorem length_ofText_le (s : String) : (ofText s).length ≤ 4 * s.length := by
  rw [length_ofText]
  induction s using String.push_induction with
  | empty => simp
  | push s c ih =>
    have hc := c.utf8Size_le_four
    rw [String.utf8ByteSize_push, String.length_push]
    omega

end Bytes

theorem length_toString_le {n : Nat} (h : n < UInt64.size) : (toString n).length ≤ 20 :=
  (Nat.length_repr_le_iff (by decide)).2 (Nat.lt_trans h (by decide))

namespace Relation

/-- **A relation takes the room of its header and of its pairs.** -/
theorem length_encode_eq (r : Relation) : r.encode.length = Segment.headerLength +
    (r.pairs.map fun pair => Segment.pairHeaderLength + pair.2.length).sum := by
  rw [length_encode, body_eq, List.length_flatten, List.map_map]
  refine congrArg (fun lengths : List Nat => Segment.headerLength + lengths.sum) ?_
  exact List.map_congr_left fun pair _ => Segment.length_encodePair pair

end Relation

theorem Fault.le_of_reserve {memory : Memory} {size : Nat}
    (h : Fault.reserve memory size = .ok ()) : size ≤ Memory.addressable := by
  by_contra hlarge
  unfold Fault.reserve Memory.refusal? at h
  rw [if_pos (Nat.lt_of_not_le hlarge)] at h
  cases h

/-- **What is done once memory was granted** may rely on it that so many bytes can be addressed. -/
theorem Recorder.Adding.reserve {α : Type} {n size : Nat} {x : Action α}
    (hx : size ≤ Memory.addressable → Adding n x) :
    Adding n (Recorder.reserve size >>= fun _ => x) := by
  intro r h ha
  have hgranted : Answers (Recorder.reserve size) r fun _ r' =>
      r' = r ∧ size ≤ Memory.addressable := by
    refine Answers.after (Fallible.runOn_get r) ?_
    refine (Answers.settle (Fault.reserve r.host.memory size) r).mono ?_
    rintro _ r' ⟨hsame, hgrant⟩
    exact ⟨hsame, Fault.le_of_reserve hgrant⟩
  refine hgranted.bind ?_
  rintro _ _ ⟨rfl, hsize⟩
  exact hx hsize _ h ha

theorem Relation.length_encode_singleton (typeId key : UInt64) (value : Bytes) :
    (Relation.encode ⟨typeId, [(key, value)]⟩).length =
      Segment.headerLength + (Segment.pairHeaderLength + value.length) := by
  rw [length_encode_eq, List.map_singleton, List.sum_singleton]

theorem Relation.addressable_of_short {typeId key : UInt64} {value : Bytes}
    (h : value.length < UInt32.size) :
    (Relation.encode ⟨typeId, [(key, value)]⟩).length ≤ Memory.addressable := by
  have hroom : Segment.headerLength + (Segment.pairHeaderLength + UInt32.size) ≤
      Memory.addressable := by decide
  rw [length_encode_singleton]
  exact Nat.le_trans (Nat.add_le_add_left (Nat.add_le_add_left (Nat.le_of_lt h) _) _) hroom

/-- **Few short constants are written as relations that can be addressed.** -/
theorem TypeSet.addressable_relations {s : TypeSet} (bound : Nat)
    (hs : ∀ c ∈ s, Segment.pairHeaderLength + c.value.length ≤ bound)
    (hb : s.length * bound < UInt32.size) :
    ∀ relation ∈ s.relations, relation.encode.length ≤ Memory.addressable := by
  have hroom : Segment.headerLength + UInt32.size ≤ Memory.addressable := by decide
  intro relation hr
  obtain ⟨typeId, -, rfl⟩ := List.mem_map.1 hr
  have hlength : (s.pairsOf typeId).length ≤ s.length := by
    rw [pairsOf, List.length_map]
    exact List.length_filter_le ..
  have hpairs : ∀ n ∈ (s.pairsOf typeId).map fun pair => Segment.pairHeaderLength + pair.2.length,
      n ≤ bound := by
    simp only [pairsOf, List.map_map, List.mem_map, List.mem_filter]
    rintro n ⟨c, ⟨hc, -⟩, rfl⟩
    exact hs c hc
  have hsum := List.sum_le_card_nsmul _ bound hpairs
  rw [List.length_map] at hsum
  have hmost := Nat.le_trans hsum (Nat.mul_le_mul_right bound hlength)
  rw [Relation.length_encode_eq]
  exact Nat.le_trans (Nat.add_le_add_left (Nat.le_of_lt (Nat.lt_of_le_of_lt hmost hb)) _) hroom

/-- **The description of a thread with short names can be addressed.** -/
theorem ThreadInfo.addressable_relations {info : ThreadInfo} (id : ThreadId) (c : Option ThreadId)
    (hname : info.name.length ≤ 1000) (hgroup : info.groupName.length ≤ 1000) :
    ∀ relation ∈ info.relations id c, relation.encode.length ≤ Memory.addressable := by
  have hwords : UInt32.size = 4294967296 := by decide
  have hname := Nat.le_trans (Bytes.length_ofText_le info.name) (Nat.mul_le_mul_left 4 hname)
  have hgroup := Nat.le_trans (Bytes.length_ofText_le info.groupName)
    (Nat.mul_le_mul_left 4 hgroup)
  refine List.forall_mem_cons.2
    ⟨Relation.addressable_of_short ?_, List.forall_mem_singleton.2 ?_⟩
  · simp [value, threadValue, Field.encodeAll, Field.encode]
    omega
  · refine Relation.addressable_of_short ?_
    simp [groupValue, Field.encodeAll, Field.encode]
    omega

namespace Plan

variable {p : Plan} {chunk worker : Nat}

/-! ## 2. Workers -/

theorem adding_writeCarrier (hworker : worker < UInt64.size) :
    Adding 1 (Recorder.writeCheckpoint (carrier worker) none none) := by
  have hworker := length_toString_le hworker
  have hfew : ((carrier worker).checkpointRelations none none).length < UInt32.size := by
    rw [ThreadInfo.length_checkpointRelations]
    decide
  refine .writeRelations _ _ (fun relation hr => ?_) hfew ⟨_, List.mem_cons_self, rfl⟩
  have hgroup : "workers".length ≤ 1000 := by decide
  refine ThreadInfo.addressable_relations _ _ ?_ hgroup relation hr
  show ("worker-" ++ toString worker).length ≤ 1000
  have hlabel : "worker-".length = 7 := by decide
  rw [String.length_append]
  omega

theorem addressable_payload (hroom : p.payloadRoom ≤ Memory.addressable) (typeId key : UInt64) :
    (Relation.encode ⟨typeId, [(key, p.payloadOf worker)]⟩).length ≤ Memory.addressable := by
  rwa [Relation.length_encode_singleton, payloadOf, List.length_replicate]

/-- A checkpoint of a carrier thread is one. -/
theorem adding_writeFrame {seq : Nat} (hchunk : chunk < UInt64.size) (hseq : seq < UInt64.size) :
    Adding 1 (p.writeFrame chunk worker seq) := by
  have htext := Bytes.length_ofText_le ("frame-" ++ toString chunk ++ "-" ++ toString seq)
  have hchunk := length_toString_le hchunk
  have hseq := length_toString_le hseq
  have hwords : UInt32.size = 4294967296 := by decide
  have hlabel : "frame-".length = 6 ∧ "-".length = 1 := by decide
  simp only [String.length_append] at htext
  refine Adding.reserve fun hroom => ?_
  have hsizes : ∀ relation ∈ p.checkpointRelations chunk worker seq,
      relation.encode.length ≤ Memory.addressable :=
    List.forall_mem_cons.2 ⟨addressable_payload hroom _ _,
      List.forall_mem_singleton.2 (Relation.addressable_of_short (by omega))⟩
  have hframe : Adding 1 (Recorder.writeRelations (carrier worker).id .threadLocal false
      (p.checkpointRelations chunk worker seq)) :=
    .writeRelations _ _ hsizes (show 2 < UInt32.size by decide) ⟨_, List.mem_cons_self, rfl⟩
  exact hframe.bind fun _ => .pure ()

/-- A virtual thread is two: its description, in full or by its id alone, and an event. -/
theorem adding_runVirtual {n : Nat} : Adding 2 (p.runVirtual worker n) := by
  have hevent (hroom : p.payloadRoom ≤ Memory.addressable) :
      Adding 1 (Recorder.writeRelations (p.virtualId worker n) .virtualThreadLocal false
        [⟨ConstantType.firstFree, [(p.virtualId worker n, p.payloadOf worker)]⟩]) :=
    .writeRelations _ _ (List.forall_mem_singleton.2 (addressable_payload hroom _ _))
      (show 1 < UInt32.size by decide) ⟨_, List.mem_cons_self, rfl⟩
  have hrest := Adding.reserve fun hroom => (hevent hroom).bind fun _ => .pure ()
  unfold runVirtual
  dsimp only
  split
  · refine Adding.bind ?_ fun _ => hrest
    have hdigits : (toString (p.virtualId worker n).toNat).length ≤ 20 :=
      length_toString_le (UInt64.toNat_lt _)
    have hlabel : "vthread-".length = 8 := by decide
    have hgroup : virtualGroupName.length ≤ 1000 := by decide
    refine .writeRelations _ _ (fun relation hr => ?_) (show 2 < UInt32.size by decide)
      ⟨_, List.mem_cons_self, rfl⟩
    refine ThreadInfo.addressable_relations _ _ ?_ hgroup relation hr
    show ("vthread-" ++ toString (p.virtualId worker n).toNat).length ≤ 1000
    rw [String.length_append]
    omega
  · refine Adding.bind ?_ fun _ => hrest
    exact .writeRelations _ _
      (List.forall_mem_singleton.2 (Relation.addressable_of_short (by decide +kernel)))
      (show 1 < UInt32.size by decide) ⟨_, List.mem_cons_self, rfl⟩

/-- **A worker writes all its checkpoints**: one that describes itself, those that the plan asks
for, and two for each virtual thread.  Each of them is counted, as written or as dropped. -/
theorem adding_work (hworker : worker < UInt64.size) (hchunk : chunk < UInt64.size)
    (hcheckpoints : p.checkpoints < UInt64.size) :
    Adding (p.checkpoints + 2 * p.virtualThreads + 1) (p.work chunk worker) := by
  have hframes : Adding p.checkpoints
      ((List.range p.checkpoints).forM (p.writeFrame chunk worker)) := by
    have hall : ∀ seq ∈ List.range p.checkpoints, Adding 1 (p.writeFrame chunk worker seq) :=
      fun seq hseq => adding_writeFrame hchunk (Nat.lt_trans (List.mem_range.1 hseq) hcheckpoints)
    simpa using Adding.forM hall
  have hvirtual : Adding (2 * p.virtualThreads)
      ((List.range p.virtualThreads).forM (p.runVirtual worker)) := by
    have hall : ∀ n ∈ List.range p.virtualThreads, Adding 2 (p.runVirtual worker n) :=
      fun n _ => adding_runVirtual
    simpa [Nat.mul_comm] using Adding.forM hall
  have hrest := hframes.bind fun _ =>
    hvirtual.bind fun _ => Adding.releaseThread (carrier worker).id
  have hwhole := (adding_writeCarrier hworker).bind fun _ =>
    Adding.reserve fun _ : p.payload ≤ Memory.addressable => hrest
  rwa [Nat.add_comm 1] at hwhole

/-- **A single worker writes all that is written for a chunk.**  A fault of his is passed on. -/
theorem adding_workAll (hthreads : p.threads = 1) (hchunk : chunk < UInt64.size)
    (hcheckpoints : p.checkpoints < UInt64.size) :
    Adding (p.checkpoints + 2 * p.virtualThreads + 1) (p.workAll chunk) := by
  intro r h ha
  have hwork := @adding_work p chunk 0 (by decide) hchunk hcheckpoints r h ha
  rcases hrun : Fallible.runOn (p.work chunk 0) r with ⟨fault | _, r'⟩
  · have hfault : ∃ fault' r'', Fallible.runOn (p.workAll chunk) r = (.error fault', r'') := by
      by_cases hends : fault.endsProgram = true
      · exact ⟨fault, r', by simp [workAll, hthreads, workApart, hrun, hends, List.range_one]⟩
      · refine ⟨fault.ofWorker, r', ?_⟩
        simp [workAll, hthreads, workApart, hrun, hends, List.range_one]
    obtain ⟨fault', r'', hwhole⟩ := hfault
    exact Answers.of_ends (Ends.self _ r) fun a r' heq => by rw [hwhole] at heq; cases heq
  · have hwhole : Fallible.runOn (p.workAll chunk) r = (.ok (), r') := by
      simp [workAll, hthreads, workApart, hrun, List.range_one]
    exact Ends.of_run hwhole fun _ _ => hwork.run_eq hrun

/-! ## 3. Classes -/

theorem classId_inj {n m : Nat} (hn : n < 8) (hm : m < 8) :
    classId chunk n = classId chunk m ↔ n = m := by
  refine ⟨fun h => ?_, fun h => congrArg _ h⟩
  have hnat := congrArg UInt64.toNat h
  simp only [classId, UInt64.toNat_ofNat'] at hnat
  omega

theorem registerClasses_eq (r : Recorder) (chunk : Nat) :
    registerClasses r chunk =
      { r with typeSet := r.typeSet ++ (List.range 8).map (classConstant chunk) } := by
  simp [registerClasses, List.range_succ, Recorder.registerConstant, TypeSet.register]

theorem refersTo_classConstant {n : Nat} (hn : n < 8) :
    TypeSet.refersTo (ascending ((List.range 2).map (classId chunk))) (classConstant chunk n) =
      decide (n < 2) := by
  have hmem : classId chunk n ∈ ascending ((List.range 2).map (classId chunk)) ↔ n < 2 := by
    rw [mem_ascending, List.mem_map]
    constructor
    · rintro ⟨m, hm, hid⟩
      have hm := List.mem_range.1 hm
      rwa [← (classId_inj (by omega) hn).1 hid]
    · exact fun hlt => ⟨n, List.mem_range.2 hlt, rfl⟩
  rw [TypeSet.refersTo_eq, classConstant, Option.any_some]
  exact decide_eq_decide.2 hmem

/-- **The first two classes are purged**, and the host is as it was. -/
theorem unloadClasses_eq (r : Recorder) (chunk : Nat)
    (hwaiting : r.typeSet = (List.range 8).map (classConstant chunk))
    (hhost : r.host.unloadingSet = []) :
    unloadClasses r chunk =
      { r with
        typeSet := (List.range' 2 6).map (classConstant chunk)
        stats := { r.stats with typeEntriesPurged := r.stats.typeEntriesPurged + 2 } } := by
  have hunloading : (r.host.markUnloading ((List.range 2).map (classId chunk))).unloading =
      ascending ((List.range 2).map (classId chunk)) := by
    rw [Host.markUnloading, hhost]
    rfl
  have hcount : r.typeSet.purgeCount (ascending ((List.range 2).map (classId chunk))) = 2 := by
    rw [hwaiting, TypeSet.purgeCount, List.countP_map]
    refine (List.countP_congr (q := fun n => decide (n < 2)) fun n hn => ?_).trans (by decide)
    rw [Function.comp_apply, refersTo_classConstant (List.mem_range.1 hn)]
  have hpurge : r.typeSet.purge (ascending ((List.range 2).map (classId chunk))) =
      (List.range' 2 6).map (classConstant chunk) := by
    rw [hwaiting, TypeSet.purge, List.filter_map]
    refine congrArg _ ((List.filter_congr (q := fun n => !decide (n < 2)) fun n hn => ?_).trans
      (by decide))
    rw [Function.comp_apply, refersTo_classConstant (List.mem_range.1 hn)]
  have hdone : (r.host.markUnloading ((List.range 2).map (classId chunk))).finishUnloading =
      r.host := by
    rw [Host.finishUnloading, Host.markUnloading, ← hhost]
  rw [unloadClasses, Recorder.purgeUnloading]
  simp only [Recorder.changeHost, hunloading, hcount, hpurge, hdone]

/-! ## 4. Chunks -/

/-- **The recorder is ready for a chunk of the plan**, and its sink accepts every call. -/
structure Ready (p : Plan) (r : Recorder) : Prop where
  idle : r.Idle
  typeSet : r.typeSet = []
  statics : r.statics = StaticConstants.builtin
  host : ∃ memory, r.host = p.host memory
  sink : ∃ s, r.sink = some s ∧ s.Reliable

/-- The checkpoints of a chunk that a single worker fills. -/
def chunkCheckpoints (p : Plan) : Nat := p.checkpoints + 2 * p.virtualThreads + 4

/-- **A chunk of the plan was filled.** -/
structure FillsChunk (p : Plan) (r : Recorder) (gained : Bytes) (r' : Recorder) : Prop
    extends r.Fills p.chunkCheckpoints gained r' where
  ready : p.Ready r'
  purged : r'.stats.typeEntriesPurged = r.stats.typeEntriesPurged + 2
  discarded : r'.stats.bytesDiscarded = r.stats.bytesDiscarded

theorem host_of_one (hthreads : p.threads = 1) (memory : Memory) :
    p.host memory = ({ memory := memory } : Host).attach (carrier 0) := by
  rw [host, hthreads]
  rfl

/-- The six classes that are left are relations that can be addressed. -/
theorem addressable_classes (hchunk : chunk < UInt64.size) :
    ∀ relation ∈ TypeSet.relations ((List.range' 2 6).map (classConstant chunk)),
      relation.encode.length ≤ Memory.addressable := by
  have hroom : ((List.range' 2 6).map (classConstant chunk)).length * 1000 < UInt32.size := by
    rw [List.length_map]
    decide
  refine TypeSet.addressable_relations 1000 (fun c hc => ?_) hroom
  obtain ⟨n, hn, rfl⟩ := List.mem_map.1 hc
  have htext := Bytes.length_ofText_le
    ("com/example/Class" ++ toString chunk ++ "_" ++ toString n)
  have hchunk := length_toString_le hchunk
  have hn : (toString n).length ≤ 20 :=
    length_toString_le (Nat.lt_trans (List.mem_range'_1.1 hn).2 (by decide))
  have hl : Segment.pairHeaderLength = 12 := rfl
  have hlabel : "com/example/Class".length = 17 ∧ "_".length = 1 := by decide
  simp only [String.length_append] at htext
  simp only [classConstant, Field.encodeAll, Field.encode, List.map_cons, List.map_nil,
    List.flatten_cons, List.flatten_nil, List.append_nil, List.length_append,
    Bytes.length_digits]
  omega

/-- All checkpoints of the rotation have something to tell. -/
theorem tellsAll (hthreads : p.threads = 1) (hchunk : chunk < UInt64.size) {r : Recorder}
    (hstatics : r.statics = StaticConstants.builtin) {memory : Memory}
    (hhost : r.host = p.host memory)
    (htypes : r.typeSet = (List.range' 2 6).map (classConstant chunk)) : r.TellsAll := by
  have htables : ∀ relation ∈ StaticConstants.builtin ++
      ThreadInfo.table (({} : Host).attach (carrier 0)).liveThreads,
      relation.encode.length ≤ Memory.addressable := by decide +kernel
  have hhost := hhost.trans (host_of_one hthreads memory)
  exact
    { statics := by rw [hstatics]; decide
      threads := by rw [hhost]; exact List.cons_ne_nil _ _
      types := by rw [htypes]; exact List.cons_ne_nil _ _
      sizes := by
        rw [Recorder.rotationRelations, hstatics, hhost, htypes, ← List.append_assoc]
        intro relation hr
        exact (List.mem_append.1 hr).elim (htables relation) (addressable_classes hchunk relation)
      few := by
        rw [Recorder.rotationRelations, hstatics, hhost, htypes]
        exact show 5 < UInt32.size by decide }

/-- **All that a chunk is filled with**, once its classes are registered. -/
theorem Ready.register {r : Recorder} (h : p.Ready r) (chunk : Nat) :
    registerClasses r chunk =
        { r with typeSet := (List.range 8).map (classConstant chunk) } ∧
      (registerClasses r chunk).Idle := by
  have heq := registerClasses_eq r chunk
  rw [h.typeSet, List.nil_append] at heq
  refine ⟨heq, ?_⟩
  rw [heq]
  exact ⟨h.idle.sound.alike (fun kind => by cases kind <;> rfl) rfl rfl rfl, h.idle.barrier,
    h.idle.aborted, h.idle.empty⟩

/-- **The chunk is completed** after its classes were unloaded. -/
theorem answers_unloadAndRotate (hthreads : p.threads = 1) (hchunk : chunk < UInt64.size)
    {r : Recorder} (h : r.Sound [] r.epoch.current) (hb : r.epoch.barrier = none)
    (ha : r.aborted = false) {s : Sink} (hsink : r.sink = some s) (hr : s.Reliable)
    (hwaiting : r.typeSet = (List.range 8).map (classConstant chunk))
    (hstatics : r.statics = StaticConstants.builtin) {memory : Memory}
    (hhost : r.host = p.host memory) :
    Answers Recorder.rotate (unloadClasses r chunk) fun n r' =>
      ∃ gained : Bytes, n = gained.length ∧ (unloadClasses r chunk).Closes gained r' := by
  have hunload := unloadClasses_eq r chunk hwaiting
    (by rw [hhost, host_of_one hthreads memory]; rfl)
  rw [hunload]
  refine Recorder.Sound.rotate_closes (s := s) ?_ hb ha hsink hr
    (tellsAll hthreads hchunk hstatics hhost rfl)
  exact h.alike (fun kind => by cases kind <;> rfl) rfl rfl rfl

/-- **A chunk is filled**, if that ends without a fault, and the answer is its length. -/
theorem Ready.answers_fillChunk {r : Recorder} (h : p.Ready r) (hthreads : p.threads = 1)
    (hchunk : chunk < UInt64.size) (hcheckpoints : p.checkpoints < UInt64.size) :
    Answers (p.fillChunk chunk) r fun n r' =>
      ∃ gained : Bytes, n = gained.length ∧ p.FillsChunk r gained r' := by
  obtain ⟨s, hsink, hreliable⟩ := h.sink
  obtain ⟨memory, hhost₀⟩ := h.host
  obtain ⟨hregister, hidle⟩ := h.register chunk
  unfold fillChunk
  refine Answers.after (Fallible.runOn_modify _ _) ?_
  refine (adding_workAll hthreads hchunk hcheckpoints _ hidle.sound hidle.aborted).bind ?_
  intro _ r₁ hadds
  generalize registerClasses r chunk = r₀ at *
  refine Answers.after (Fallible.runOn_modify _ _) ?_
  have hkept : r₁.writerless = r₀.writerless := hadds.kept
  rw [hregister] at hkept
  have hwaiting : r₁.typeSet = _ := (congrArg Recorder.typeSet hkept :)
  have hstatics : r₁.statics = _ := (congrArg Recorder.statics hkept :).trans h.statics
  have hhost : r₁.host = p.host memory := (congrArg Recorder.host hkept :).trans hhost₀
  have hepoch : r₁.epoch = r.epoch := by rw [hadds.epoch, hregister]
  have hunload := unloadClasses_eq r₁ chunk hwaiting (by
    rw [hhost, host_of_one hthreads memory]
    rfl)
  have hrotate := answers_unloadAndRotate hthreads hchunk hadds.sound
    (by rw [hepoch]; exact h.idle.barrier) (hadds.aborted.trans hidle.aborted)
    ((congrArg Recorder.sink hkept :).trans hsink) hreliable hwaiting hstatics hhost
  refine hrotate.mono ?_
  rintro n r' ⟨gained, hlength, hcloses⟩
  have hfills := hadds.fills h.idle (by rw [hregister]; rfl) (by rw [hunload]; rfl) hcloses
  have hclosed : r'.rotationless = (unloadClasses r₁ chunk).rotationless := hcloses.kept
  rw [hunload] at hclosed
  have hpurged : r₁.stats.typeEntriesPurged = r.stats.typeEntriesPurged :=
    (congrArg (fun r => r.stats.typeEntriesPurged) hkept :)
  have hready : p.Ready r' :=
    { idle := hcloses.idle
      typeSet := hcloses.typeSet
      statics := (congrArg Recorder.statics hclosed :).trans hstatics
      host := ⟨memory, (congrArg Recorder.host hclosed :).trans hhost⟩
      sink := hcloses.sink }
  exact ⟨gained, hlength,
    { toFills := hfills
      ready := hready
      purged := (congrArg (fun r => r.stats.typeEntriesPurged) hclosed :).trans
        (congrArg (· + 2) hpurged)
      discarded := (congrArg (fun r => r.stats.bytesDiscarded) hclosed :).trans
        (congrArg (fun r => r.stats.bytesDiscarded) hkept :) }⟩

end Plan

end TraceRecorder
