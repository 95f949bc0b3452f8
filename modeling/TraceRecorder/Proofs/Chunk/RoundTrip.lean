/-
# Chunks written and read

An `EntryDraft` is what an entry is written from.  The entries of some drafts, put one behind the
other, are read back layer by layer:

* `EntryDraft.Fits.views`: an entry is read with the header that it was written with, and stands
  where it was put;
* `Entry.ReadsAs`: its segments are those of its relations, in order, and fill its payload;
* `Segment.ReadsAs`: the pairs of a segment are those of its relation, and fill its body.

A draft fits if the numbers in its bytes do: counts and body lengths are 32-bit words, and the size
of an entry is a 64-bit word, as the length of any byte string in memory is.  Of values and of the
number of pairs nothing need be said, since they take room in the body.
-/
import TraceRecorder.Proofs.Chunk.Constants

namespace TraceRecorder

/-- What an entry is written from. -/
structure EntryDraft where
  startTime : UInt64
  duration : UInt64
  flushpoint : Bool
  relations : List Relation

namespace EntryDraft

def payload (d : EntryDraft) : Bytes := (d.relations.map Relation.encode).flatten

/-- The header that goes in front of the payload. -/
def header (d : EntryDraft) : Header :=
  .forPayload d.payload.length d.startTime d.duration d.flushpoint (UInt32.ofNat d.relations.length)

/-- **The entry in bytes.** -/
def encode (d : EntryDraft) : Bytes := d.header.encode ++ d.payload

/-- **The numbers in the bytes of the entry fit their words.** -/
structure Fits (d : EntryDraft) : Prop where
  segments : d.relations.length < UInt32.size
  bodies : ∀ r ∈ d.relations, r.body.length < UInt32.size
  size : d.encode.length < UInt64.size

end EntryDraft

/-- **The segment is read as the relation.**  It has its type and its number of pairs, its pairs are
those of the relation in order, and they fill its body. -/
structure Segment.ReadsAs (s : Segment) (r : Relation) : Prop where
  typeId : s.typeId = r.typeId
  count : s.count.toNat = r.count
  pairs : s.pairs = ⟨r.pairs, none⟩
  filled : s.body = r.pairs.flatMap Relation.encodePair

/-- **The entry is read as the draft.**  It has its header, with the number of bytes and of segments
in it, its segments are read as the relations in order, and they fill its payload. -/
structure Entry.ReadsAs (e : Entry) (d : EntryDraft) : Prop where
  header : e.header = d.header
  size : e.header.size.toNat = d.encode.length
  count : e.header.segments.toNat = d.relations.length
  segments : e.segments.damage = none ∧ List.Forall₂ Segment.ReadsAs e.segments.items d.relations
  filled : e.payload = e.segments.items.flatMap Segment.encode

theorem Relation.readsAs_segment {r : Relation} (h : r.body.length < UInt32.size) :
    r.segment.ReadsAs r where
  typeId := rfl
  count := toNat_count_segment h
  pairs := pairs_segment h
  filled := by
    rw [List.flatMap_def, ← body_eq]
    rfl

namespace EntryDraft

variable {d : EntryDraft}

theorem length_encode (d : EntryDraft) : d.encode.length = Header.length + d.payload.length := by
  rw [encode, List.length_append, Header.length_encode]

theorem Fits.carries (h : d.Fits) (offset : Nat) :
    Entry.Carries ⟨offset, d.header, d.payload⟩ d.relations :=
  ⟨UInt32.toNat_ofNat_of_lt' h.segments, rfl, h.bodies⟩

theorem Fits.size_header (h : d.Fits) : d.header.size.toNat = d.encode.length := by
  have hfits := h.size
  rw [length_encode] at hfits ⊢
  exact UInt64.toNat_ofNat_of_lt' hfits

theorem Fits.viewed (h : d.Fits) (offset : Nat) :
    Entry.Views ⟨offset, d.header, d.payload⟩ offset d.encode := by
  refine ⟨rfl, rfl, h.size_header.trans d.length_encode, fun hnone => ?_⟩
  have hcount := (h.carries offset).count
  rw [hnone] at hcount
  rw [payload, List.eq_nil_of_length_eq_zero hcount.symm]
  rfl

/-- **A draft that fits is read back**, wherever it stands. -/
theorem Fits.views (h : d.Fits) (offset : Nat) :
    ∃ entry : Entry, entry.Views offset d.encode ∧ entry.ReadsAs d := by
  have hcarries := h.carries offset
  refine ⟨_, h.viewed offset, rfl, h.size_header, hcarries.count, ?_, ?_⟩
  · rw [hcarries.segments_eq]
    refine ⟨rfl, List.forall₂_map_left_iff.2 (List.forall₂_same.2 fun r hr => ?_)⟩
    exact Relation.readsAs_segment (h.bodies r hr)
  · rw [hcarries.segments_eq, List.flatMap_map, List.flatMap_def]
    refine congrArg List.flatten (List.map_congr_left fun r hr => ?_)
    exact (Relation.encode_segment (h.bodies r hr)).symm

/-- **What is written is read back.**  The bytes of some drafts, one behind the other, are read
without damage as just as many entries, each of which starts where the one before it ends and is
read as its draft; put together again they are the bytes.  A frame is the draft that closes a
checkpoint.

That an entry is read as its draft is said at all three levels: the header has the times, the flag
and the number of the relations; the segments have their types, counts and bodies; and the pairs of
each body are those of the relation, with nothing left over. -/
theorem round_trip (ds : List EntryDraft) (h : ∀ d ∈ ds, d.Fits) :
    (Entry.readAll (ds.flatMap encode)).damage = none ∧
    Entry.Laid 0 (Entry.readAll (ds.flatMap encode)).items ∧
    (Entry.readAll (ds.flatMap encode)).items.map Entry.encode = ds.map encode ∧
    List.Forall₂ Entry.ReadsAs (Entry.readAll (ds.flatMap encode)).items ds ∧
    ∀ relations startTime duration,
      Entry.frame (relations.map Relation.encode) startTime duration =
        encode ⟨startTime, duration, false, relations⟩ := by
  have hds : List.Forall₂ (fun e d => e = d.encode ∧ d.Fits) (ds.map encode) ds :=
    List.forall₂_map_left_iff.2 (List.forall₂_same.2 fun d hd => ⟨rfl, h d hd⟩)
  obtain ⟨entries, hlaid, hentries, hreads⟩ := Entry.exists_laid
    (fun e d ⟨he, hfits⟩ offset => he ▸ hfits.views offset) hds 0
  have hread : Entry.readAll (ds.flatMap encode) = ⟨entries, none⟩ := by
    rw [List.flatMap_def, ← hentries, ← List.flatMap_def, hlaid.readAll_eq]
  rw [hread]
  refine ⟨rfl, hlaid, hentries, hreads, fun relations startTime duration => ?_⟩
  rw [Entry.frame, encode, header, payload, List.length_map]

/-- A piece of two relations, one of them without pairs, and a last piece of none. -/
theorem round_trip_two_pieces :
    let ds : List EntryDraft :=
      [⟨7, 1, true, [⟨5, [(1, [1, 2, 3]), (1, [])]⟩, ⟨6, []⟩]⟩, ⟨9, 0, false, []⟩]
    (∀ d ∈ ds, d.Fits) ∧ (Entry.readAll (ds.flatMap encode)).damage = none ∧
      ((Entry.readAll (ds.flatMap encode)).items.map Entry.encode).map List.length = [91, 32] := by
  intro ds
  have hfits : ∀ d ∈ ds, d.Fits := by
    simp only [ds, List.forall_mem_cons]
    exact ⟨⟨by decide, by decide, by decide⟩, ⟨by decide, by decide, by decide⟩, by simp⟩
  obtain ⟨hdamage, -, hbytes, -, -⟩ := round_trip ds hfits
  refine ⟨hfits, hdamage, ?_⟩
  rw [hbytes]
  decide

end EntryDraft

end TraceRecorder
