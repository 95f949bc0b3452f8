/-
# What a dropped checkpoint loses

Relations that a checkpoint cuts off as flushpoints are published at once.  They never are all of
the relations: the last ones are behind the last cut (`Sound.relationEntries_beginning`).  If
the checkpoint is dropped, that run is lost.

Waiting constants are taken out of the type set before their checkpoint begins.  So what becomes of
them is a matter of the entries alone (`TypeSet.SpentOn`): with a last entry they are all there, and
without one those of the last types are nowhere (`TypeSet.CutShort`).

* `Sound.typeSetEntries_spent`: the entries that are published of waiting constants;
* `Sound.writeTypeSet_answers`: a dropped checkpoint is counted, and answered like one without any
  bytes;
* `Sound.rotate_spends`: a rotation spends them in the same way, unless it is refused before.
-/
import TraceRecorder.Proofs.Recorder.TypeSets

namespace TraceRecorder

open Fallible (Ends)

/-! ## 1. What is cut off -/

namespace Recorder

variable {r : Recorder} {out : List Buffer} {e : Epoch} {kind : BufferKind}

/-- **The flushpoints of a checkpoint of relations** are its beginning, and never all of it. -/
theorem Sound.relationEntries_beginning (h : r.Sound out e) (thread : ThreadId)
    (hm : r.options.Modest kind) (duringDrain : Bool)
    (he : Fallible.runOn (leaseEpoch duringDrain) r = (.ok e, r)) {relations : List Relation}
    (hne : relations.filter (fun relation => !relation.isEmpty) ≠ []) :
    ∃ told rest, relations.filter (fun relation => !relation.isEmpty) = told ++ rest ∧ rest ≠ [] ∧
      Entry.Beginning r.clock (r.relationEntries thread kind duringDrain relations).cut told := by
  obtain ⟨left, hcuttings, -⟩ := h.relationEntries_cuttings thread kind duringDrain he relations
  obtain ⟨told, htold, hbeginning⟩ := hcuttings.beginning hm.roomiest_lt
  exact ⟨told, left, htold, hcuttings.left_ne_nil hne, hbeginning⟩

end Recorder

/-! ## 2. Waiting constants -/

/-- **The constant is in some entries**: its pair is in a segment of its type. -/
def PendingConstant.ToldIn (c : PendingConstant) (es : List Bytes) : Prop :=
  ∃ table ∈ Entry.tables es.flatten, table.1 = c.typeId ∧ (c.key, c.value) ∈ table.2

instance (c : PendingConstant) (es : List Bytes) : Decidable (c.ToldIn es) :=
  inferInstanceAs (Decidable (∃ table ∈ Entry.tables es.flatten, _ ∧ _))

namespace TypeSet

variable {s : TypeSet} {es : List Bytes}

/-- The constants that are in none of the entries. -/
def leftOut (s : TypeSet) (es : List Bytes) : TypeSet := s.filter fun c => decide (¬ c.ToldIn es)

/-- **The entries tell the constants of some types only.** -/
structure TellsOnly (s : TypeSet) (es : List Bytes) (told untold : List UInt64) : Prop where
  types : ascending (s.map PendingConstant.typeId) = told ++ untold
  tables : Entry.tables es.flatten = told.map fun typeId => (typeId, s.pairsOf typeId)

theorem TellsOnly.toldIn_iff {told untold : List UInt64} (h : s.TellsOnly es told untold)
    {c : PendingConstant} (hc : c ∈ s) : c.ToldIn es ↔ c.typeId ∈ told := by
  rw [PendingConstant.ToldIn, h.tables]
  constructor
  · rintro ⟨_, htable, htype, -⟩
    obtain ⟨typeId, ht, rfl⟩ := List.mem_map.1 htable
    exact htype ▸ ht
  · intro ht
    have hpair : (c.key, c.value) ∈ s.pairsOf c.typeId :=
      List.mem_map.2 ⟨c, List.mem_filter.2 ⟨hc, beq_self_eq_true _⟩, rfl⟩
    exact ⟨_, List.mem_map.2 ⟨c.typeId, ht, rfl⟩, rfl, hpair⟩

/-- **The constants of the other types are left out.** -/
theorem TellsOnly.leftOut_eq {told untold : List UInt64} (h : s.TellsOnly es told untold) :
    s.leftOut es = s.filter fun c => decide (c.typeId ∈ untold) := by
  have hdisjoint := (List.nodup_append.1 (h.types ▸ nodup_ascending _)).2.2
  refine List.filter_congr fun c hc => decide_eq_decide.2 ?_
  have hmem : c.typeId ∈ told ++ untold := by
    rw [← h.types, mem_ascending]
    exact List.mem_map.2 ⟨c, hc, rfl⟩
  rw [h.toldIn_iff hc]
  refine ⟨(List.mem_append.1 hmem).resolve_left, fun hu ht => hdisjoint _ ht _ hu rfl⟩

/-- **The entries tell the first types only**, as the beginning of a checkpoint.  The constants of
the other types, of which there are some, are left out. -/
structure CutShort (s : TypeSet) (es : List Bytes) : Prop where
  beginning : ∃ startTime told rest, s.relations = told ++ rest ∧ rest ≠ [] ∧
    Entry.Beginning startTime es told
  nested : Entry.AllOf Entry.Nested es.flatten
  types : ∃ told untold, s.TellsOnly es told untold ∧
    s.leftOut es = s.filter fun c => decide (c.typeId ∈ untold)
  some : s.leftOut es ≠ []

/-- **Of a checkpoint that is cut short** a reader finds the beginning: the first relations, in
order, and at least one is missing. -/
theorem cutShort_of_beginning {startTime : UInt64} {told rest : List Relation}
    (hrelations : s.relations = told ++ rest) (hrest : rest ≠ [])
    (h : Entry.Beginning startTime es told) : s.CutShort es := by
  obtain ⟨ts, us, htypes, rfl, rfl⟩ := List.map_eq_append_iff.1 hrelations
  have honly : s.TellsOnly es ts us := ⟨htypes, by
    rw [h.tables.2, List.map_map]
    rfl⟩
  refine ⟨⟨startTime, _, _, hrelations, hrest, h⟩, h.tables.1,
    ⟨ts, us, honly, honly.leftOut_eq⟩, ?_⟩
  obtain ⟨typeId, hu⟩ := List.exists_mem_of_ne_nil us fun hnil => hrest (by rw [hnil]; rfl)
  have hmem : typeId ∈ s.map PendingConstant.typeId := by
    rw [← mem_ascending, htypes]
    exact List.mem_append_right _ hu
  obtain ⟨c, hc, rfl⟩ := List.mem_map.1 hmem
  rw [honly.leftOut_eq]
  exact List.ne_nil_of_mem (List.mem_filter.2 ⟨hc, decide_eq_true hu⟩)

/-- **What was published of waiting constants**: all of them, or the first types. -/
structure SpentOn (s : TypeSet) (p : Published) : Prop where
  written : p.last ≠ [] → s.WrittenAs p.entries
  dropped : p.last = [] → s.CutShort p.entries

end TypeSet

namespace Recorder

variable {r : Recorder} {out : List Buffer} {e : Epoch}

/-- **What is published of waiting constants** is either a whole checkpoint of their relations, or
the beginning of one whose last entry never comes. -/
theorem Sound.typeSetEntries_spent (h : r.Sound out e) (hm : r.options.Modest .global)
    (duringDrain : Bool) (he : Fallible.runOn (leaseEpoch duringDrain) { r with typeSet := [] } =
      (.ok e, { r with typeSet := [] }))
    (hw : r.typeSet ≠ []) : r.typeSet.SpentOn (r.typeSetEntries duringDrain) := by
  have hcleared := h.withoutTypeSet
  have hfilter := r.typeSet.filter_relations
  have hne : r.typeSet.relations.filter (fun relation => !relation.isEmpty) ≠ [] := by
    rw [hfilter]
    exact mt r.typeSet.relations_eq_nil_iff.1 hw
  refine ⟨fun hlast => ?_, fun hlast => ?_⟩
  · have hspans := hcleared.relationEntries_spans recorderThread hm duringDrain he _ hlast
    rw [hfilter] at hspans
    exact r.typeSet.writtenAs_of_spans hspans
  · obtain ⟨told, rest, hrelations, hrest, hbeginning⟩ :=
      hcleared.relationEntries_beginning recorderThread hm duringDrain he hne
    rw [hfilter] at hrelations
    have hcut : (r.typeSetEntries duringDrain).entries = (r.typeSetEntries duringDrain).cut := by
      rw [Published.entries, hlast, List.append_nil]
    rw [hcut]
    exact TypeSet.cutShort_of_beginning hrelations hrest hbeginning

/-- **Writing the waiting constants meets no fault.**  If there is no last entry the answer is 0,
and the checkpoint was dropped, unless the recorder was aborted before. -/
theorem Sound.writeTypeSet_answers (h : r.Sound out r.epoch.current) (hm : r.options.Modest .global)
    (hs : ∀ relation ∈ r.typeSet.relations, relation.encode.length ≤ Memory.addressable)
    (hw : r.typeSet ≠ []) :
    Ends Recorder.writeTypeSet r fun answer r' => ∃ n, answer = .ok n ∧
      ((r.typeSetEntries false).last = [] → n = 0 ∧ (r.aborted = true ∨ r.Counts r' 0 1)) := by
  by_cases ha : r.aborted = true
  · exact Ends.of_run (runOn_writeTypeSet_of_aborted ha) ⟨0, rfl, fun _ => ⟨rfl, .inl ha⟩⟩
  have ha : r.aborted = false := Bool.eq_false_iff.2 ha
  have hcleared := h.withoutTypeSet
  refine Ends.after (Fallible.runOn_get r) (Ends.after (Fallible.runOn_set _ _)
    (((hcleared.writeRelations_gains ha recorderThread hm false rfl hs).and
      (hcleared.writeRelations_tallied ha recorderThread .global false rfl hs (.inl hm)
        (r.typeSet.exists_nonempty_relation hw))).mono ?_))
  rintro _ r' ⟨⟨⟨n, rfl⟩, ht, -⟩, htallied⟩
  obtain ⟨_, ⟨⟩, hcounts⟩ := htallied.resolve_left (not_refused_ok n)
  refine ⟨n, rfl, fun hlast => ?_⟩
  rcases hcounts with hcounts | ⟨hzero, hcounts⟩
  · have hwritten : r'.stats.checkpointsWritten =
        r.stats.checkpointsWritten + (r.typeSetEntries false).last.length := ht.last
    have hone : r'.stats.checkpointsWritten = r.stats.checkpointsWritten + 1 := hcounts.written
    rw [hlast, List.length_nil] at hwritten
    omega
  · exact ⟨hzero, .inr ⟨hcounts.written, hcounts.dropped⟩⟩

/-- **A rotation spends the waiting constants**, or they still wait. -/
theorem Sound.rotate_spends (h : r.Sound out r.epoch.current) (hm : r.options.Modest .global)
    (hw : r.typeSet ≠ []) :
    Ends Recorder.rotate r fun _ r' => r'.typeSet = r.typeSet ∨ (r'.typeSet = [] ∧ ∃ p,
      r.rotationEntries = r.staticAndThreadEntries ++ p ∧ r.typeSet.SpentOn p) := by
  refine h.rotate_takes.mono ?_
  rintro _ r' (hkept | ⟨hnone, r₁, ht, hentries⟩)
  · exact .inl hkept
  have htypes : r₁.typeSet = r.typeSet := (congrArg Recorder.typeSet ht.surroundings :)
  have hraised := ht.sound.moveEpoch EpochController.raise
  have hspent := hraised.typeSetEntries_spent (ht.prepared.options ▸ hm) true
    (runOn_leaseEpoch_raise ht.epoch) (htypes ▸ hw)
  exact .inr ⟨hnone, _, hentries, htypes ▸ hspent⟩

end Recorder

end TraceRecorder
