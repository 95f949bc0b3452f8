/-
# What a published entry looks like

Every entry that is published is a run of segments with a header in front of it that says so, and
the header counts some (`Entry.Seals`).  The flushpoint word tells what the entry was published as:
those that are cut off are flushpoints, and the last one of a checkpoint is none
(`Published.Seals`).

* `Writer.Runs.cutOff` and `Writer.Runs.lastPiece`: so it is with what a writer publishes;
* `Recorder.Sound.relationEntries_seals` and what follows it: so it is with what the recorder writes
  on its own behalf, whose segments are relations;
* `Entry.Seals.views` and `Entry.describes_piece`: a reader finds such an entry;
* `Entry.read_of_views` and `Entry.countP_flag?`: and finds it in a chunk, by its flag.

What else is known of the run, such as that its segments are relations, is a parameter.
-/
import Mathlib.Algebra.GroupWithZero.Nat
import TraceRecorder.Proofs.Recorder.Drops
import TraceRecorder.Proofs.Recorder.Rotations

namespace TraceRecorder

open Fallible (Ends)

/-! ## 1. Sealed entries -/

def Relation.Encodes (segments : List Bytes) : Prop :=
  ∃ relations : List Relation, segments = relations.map Relation.encode

theorem Relation.Encodes.nil : Relation.Encodes [] := ⟨[], rfl⟩

theorem Relation.Encodes.concat {segments : List Bytes} (h : Relation.Encodes segments)
    (relation : Relation) : Relation.Encodes (segments ++ [relation.encode]) := by
  obtain ⟨relations, rfl⟩ := h
  exact ⟨relations ++ [relation], by rw [List.map_append]; rfl⟩

namespace Entry

/-- The flushpoint flag in the header of an entry. -/
def flag? (e : Bytes) : Option Bool := (Header.decode e).toOption.map Header.flushpoint

/-- **The entry is a run of segments** with a header in front, and fits some buffer.  The word in
the header counts some segments. -/
def Seals (o : RecorderOptions) (P : List Bytes → Prop) (flushpoint : Bool) (e : Bytes) : Prop :=
  ∃ segments startTime duration, e = piece segments startTime duration flushpoint ∧
    UInt32.ofNat segments.length ≠ 0 ∧ P segments ∧
    ∃ kind, Header.length + segments.flatten.length ≤ o.roomiest kind

namespace Seals

variable {o : RecorderOptions} {P Q : List Bytes → Prop} {flushpoint : Bool} {e : Bytes}

theorem flag?_eq (h : Seals o P flushpoint e) : flag? e = some flushpoint := by
  obtain ⟨segments, startTime, duration, rfl, -⟩ := h
  rw [flag?, piece, Header.decode_encode_append]
  rfl

theorem mono (h : Seals o P flushpoint e) (hpq : ∀ segments, P segments → Q segments) :
    Seals o Q flushpoint e := by
  obtain ⟨segments, startTime, duration, he, hne, hp, kind, hroom⟩ := h
  exact ⟨segments, startTime, duration, he, hne, hpq segments hp, kind, hroom⟩

/-- **A reader finds the entry**, however many segments there are.  It takes the size from the
header, and asks the count only whether there are any. -/
theorem views (h : Seals o P flushpoint e) (offset : Nat) :
    ∃ entry : Entry, entry.Views offset e := by
  obtain ⟨segments, startTime, duration, rfl, hne, -, kind, hroom⟩ := h
  have haddressable : Memory.addressable < UInt64.size := by decide
  have hsize : Header.length + segments.flatten.length < UInt64.size :=
    Nat.lt_of_le_of_lt (Nat.le_trans hroom (Nat.min_le_right ..)) haddressable
  refine ⟨⟨offset, .forPayload segments.flatten.length startTime duration flushpoint
    (UInt32.ofNat segments.length), segments.flatten⟩, rfl, rfl, ?_, fun hnone => absurd hnone hne⟩
  exact UInt64.toNat_ofNat_of_lt' hsize

end Seals

theorem Seals.describes {o : RecorderOptions} {flushpoint : Bool} {e : Bytes}
    (h : Seals o Relation.Encodes flushpoint e) (ho : ∀ kind, o.Modest kind) :
    ∃ relations, Describes e relations := by
  obtain ⟨segments, startTime, duration, rfl, -, ⟨relations, rfl⟩, kind, hroom⟩ := h
  exact ⟨relations, describes_piece (ho kind) _ _ _ hroom⟩

theorem Laid.sum_sizes {offset : Nat} {es : List Entry} (h : Laid offset es) :
    (es.map fun e => e.header.size.toNat).sum = (es.flatMap encode).length := by
  induction es generalizing offset with
  | nil => rfl
  | cons e es ih =>
    obtain ⟨-, hsound, hrest⟩ := h
    rw [List.map_cons, List.sum_cons, ih hrest, List.flatMap_cons, List.length_append, hsound.size,
      length_encode]

/-- **Entries that a reader finds are read without damage**, each as it stands. -/
theorem read_of_views {chunk : Bytes} (hrow : IsRow chunk)
    (h : ∀ e ∈ split chunk, ∀ offset, ∃ entry : Entry, entry.Views offset e) :
    (readAll chunk).damage = none ∧ (readAll chunk).items.map encode = split chunk ∧
      ((readAll chunk).items.map fun e => e.header.size.toNat).sum = chunk.length := by
  have hviews : ∀ e (_ : Bytes), (∀ offset, ∃ entry : Entry, entry.Views offset e) → ∀ offset,
      ∃ entry : Entry, entry.Views offset e ∧ True :=
    fun e _ hviews offset => (hviews offset).imp fun _ h => ⟨h, trivial⟩
  obtain ⟨entries, hlaid, hentries, -⟩ := exists_laid hviews (List.forall₂_same.2 h) 0
  have hchunk : entries.flatMap encode = chunk := by rw [List.flatMap_def, hentries, hrow]
  have hread := hlaid.readAll_eq
  rw [hchunk] at hread
  rw [hread, hlaid.sum_sizes, hchunk]
  exact ⟨rfl, hentries, rfl⟩

theorem flag?_encode (e : Entry) : flag? e.encode = some e.header.flushpoint := by
  rw [flag?, encode, Header.decode_encode_append]
  rfl

theorem countP_flag? (es : List Entry) (b : Bool) :
    (es.map encode).countP (flag? · == some b) = es.countP (·.header.flushpoint == b) := by
  rw [List.countP_map]
  refine List.countP_congr fun e _ => ?_
  simp [flag?_encode]

theorem Cuttings.seals {o : RecorderOptions} {kind : BufferKind} {startTime : UInt64}
    {left relations : List Relation} {es : List Bytes}
    (h : Cuttings (o.roomiest kind) startTime left es relations) :
    ∀ e ∈ es, Seals o Relation.Encodes true e := by
  induction h with
  | none => exact fun _ he => by cases he
  | @cut run _ _ _ hrun hmost _ _ ih =>
    refine List.forall_mem_cons.2 ⟨?_, ih⟩
    exact ⟨_, _, _, rfl, by rwa [List.length_map], ⟨run, rfl⟩, kind, hmost⟩

end Entry

/-- **All published entries are sealed**, as what they were published as. -/
structure Published.Seals (o : RecorderOptions) (P : List Bytes → Prop) (p : Published) : Prop where
  cut : ∀ e ∈ p.cut, Entry.Seals o P true e
  last : ∀ e ∈ p.last, Entry.Seals o P false e

namespace Published.Seals

variable {o : RecorderOptions} {P Q : List Bytes → Prop} {p q : Published}

theorem nothing : Published.Seals o P {} := ⟨fun _ he => (by cases he), fun _ he => (by cases he)⟩

theorem append (h : p.Seals o P) (h' : q.Seals o P) : (p ++ q).Seals o P where
  cut e he := (List.mem_append.1 he).elim (h.cut e) (h'.cut e)
  last e he := (List.mem_append.1 he).elim (h.last e) (h'.last e)

theorem mono (h : p.Seals o P) (hpq : ∀ segments, P segments → Q segments) : p.Seals o Q where
  cut e he := (h.cut e he).mono hpq
  last e he := (h.last e he).mono hpq

theorem of_mem (h : p.Seals o P) {e : Bytes} (he : e ∈ p.entries) :
    ∃ flushpoint, Entry.Seals o P flushpoint e :=
  (List.mem_append.1 he).elim (fun he => ⟨true, h.cut e he⟩) (fun he => ⟨false, h.last e he⟩)

theorem countP_entries (h : p.Seals o P) :
    p.entries.countP (Entry.flag? · == some true) = p.cut.length ∧
      p.entries.countP (Entry.flag? · == some false) = p.last.length := by
  -- Each sort of entry counts in full for its own flag and not at all for the other.
  have hcount {b : Bool} {es : List Bytes} (hes : ∀ e ∈ es, Entry.Seals o P b e) (b' : Bool) :
      es.countP (Entry.flag? · == some b') = if b = b' then es.length else 0 := by
    split
    · rename_i hb
      exact List.countP_eq_length.2 fun e he => by rw [(hes e he).flag?_eq, hb, beq_self_eq_true]
    · rename_i hb
      refine List.countP_eq_zero.2 fun e he heq => hb ?_
      rw [(hes e he).flag?_eq] at heq
      exact Option.some.inj (beq_iff_eq.1 heq)
  simp [Published.entries, List.countP_append, hcount h.cut, hcount h.last]

end Published.Seals

/-! ## 2. Writers -/

namespace Writer

variable {P : List Bytes → Prop} {w : Writer} {r : Recorder} {out : List Buffer} {e : Epoch}

/-- **A writer of an epoch has a run with some property**, or it is gone. -/
def Runs (w : Writer) (P : List Bytes → Prop) (e : Epoch) : Prop :=
  w.Gone ∨ ∃ b run, w.Holds b run e ∧ P run

theorem Valid.runs (h : w.Valid e) : w.Runs (fun _ => True) e :=
  h.imp id fun ⟨b, run, hw⟩ => ⟨b, run, hw, trivial⟩

theorem Holds.seals {b : Buffer} {run : List Bytes} (hw : w.Holds b run e)
    (h : r.Sound (b :: out) e) (hne : w.segments ≠ 0) (hp : P run) (now : UInt64)
    (flushpoint : Bool) :
    Entry.Seals r.options P flushpoint
      (Entry.piece run w.startTime (w.elapsed now) flushpoint) :=
  ⟨run, _, _, rfl, hw.segments ▸ hne, hp, w.kind, hw.le_roomiest h⟩

/-- **What is cut off is sealed** as a flushpoint. -/
theorem Runs.cutOff (hw : w.Runs P e) (h : r.Sound (w.buffer.toList ++ out) e) (segment : Bytes)
    (now : UInt64) : ∀ x ∈ (w.cutOff? segment now).toList, Entry.Seals r.options P true x := by
  rcases hw with hgone | ⟨b, run, hw, hp⟩
  · rw [hgone.cutOff?_eq]
    exact fun _ hx => by cases hx
  · rw [hw.buffer] at h
    rw [hw.cutOff?_eq]
    split
    · rename_i hcut
      exact fun x hx => List.mem_singleton.1 hx ▸ hw.seals h hcut.1 hp now true
    · exact fun _ hx => by cases hx

/-- **The last entry is sealed**, and not as a flushpoint. -/
theorem Runs.lastPiece (hw : w.Runs P e) (h : r.Sound (w.buffer.toList ++ out) e) (now : UInt64) :
    ∀ x ∈ (w.lastPiece? now).toList, Entry.Seals r.options P false x := by
  rcases hw with hgone | ⟨b, run, hw, hp⟩
  · rw [hgone.lastPiece?_eq]
    exact fun _ hx => by cases hx
  · rw [hw.buffer] at h
    rw [hw.lastPiece?_eq]
    split
    · exact fun _ hx => by cases hx
    · rename_i hne
      exact fun x hx => List.mem_singleton.1 hx ▸ hw.seals h hne hp now false

/-- **A writer takes one more segment** and has a run with the property again, unless memory is
refused.  The property must be that of no segment, and stay with one more. -/
theorem Runs.append (hw : w.Runs P e) (h : r.Sound (w.buffer.toList ++ out) e) {segment : Bytes}
    (hnone : P []) (hmore : ∀ run, P run → P (run ++ [segment])) :
    Ends (w.append segment) r fun answer r' => ∃ outcome w', answer = .ok (outcome, w') ∧
      (Refused outcome ∨ (r'.Sound (w'.buffer.toList ++ out) e ∧ r'.options = r.options ∧
        r'.epoch = r.epoch ∧ w'.Runs P e)) := by
  rcases hw with hgone | ⟨b, run, hw, hp⟩
  · exact Ends.of_run (hgone.runOn_append _) ⟨_, w, rfl, .inr ⟨h, rfl, rfl, .inl hgone⟩⟩
  · rw [hw.buffer] at h
    refine (hw.append h segment).mono ?_
    rintro _ r' ⟨outcome, w', rfl, -, hpost⟩
    refine ⟨outcome, w', rfl, hpost.imp id ?_⟩
    rintro ⟨ht, htook⟩
    refine ⟨ht.sound, ht.prepared.options, ht.epoch, htook.imp id fun htook => ?_⟩
    obtain ⟨b', hb'⟩ := htook.holds
    refine ⟨b', _, hb', ?_⟩
    split
    · exact hmore [] hnone
    · exact hmore run hp

end Writer

/-! ## 3. The recorder -/

namespace Recorder

variable {r : Recorder} {out : List Buffer} {e : Epoch}

/-- **A checkpoint of relations is sealed.** -/
theorem Sound.relationEntries_seals (h : r.Sound out e) (thread : ThreadId) (kind : BufferKind)
    (duringDrain : Bool) (he : Fallible.runOn (leaseEpoch duringDrain) r = (.ok e, r))
    (relations : List Relation) :
    (relationEntries thread kind duringDrain relations r).Seals r.options Relation.Encodes := by
  obtain ⟨left, hcuttings, hends⟩ :=
    h.relationEntries_cuttings thread kind duringDrain he relations
  refine ⟨hcuttings.seals, ?_⟩
  rcases hends with hnil | ⟨hleft, hfits, duration, hpiece⟩
  · rw [hnil]
    exact fun _ hx => by cases hx
  · rw [hpiece]
    intro x hx
    rw [List.mem_singleton.1 hx]
    exact ⟨_, _, _, rfl, by rwa [List.length_map], ⟨left, rfl⟩, kind, hfits⟩

theorem Sound.staticAndThreadEntries_seals (h : r.Sound out r.epoch.current) :
    r.staticAndThreadEntries.Seals r.options Relation.Encodes := by
  refine (h.relationEntries_seals recorderThread .global false rfl r.statics).append ?_
  have hstatics := h.writeStatics recorderThread
  rcases hrun : Fallible.runOn (Recorder.writeStatics recorderThread) r with ⟨fault | n, r₁⟩
  · exact .nothing
  · have ht := (hstatics.run_eq hrun).resolve_left (not_refused_ok n)
    have hs := ht.sound
    rw [← ht.epoch] at hs
    exact ht.prepared.options ▸ hs.relationEntries_seals recorderThread .global false rfl _

theorem Sound.typeSetEntries_seals (h : r.Sound out e) (duringDrain : Bool)
    (he : Fallible.runOn (leaseEpoch duringDrain) { r with typeSet := [] } =
      (.ok e, { r with typeSet := [] })) :
    (r.typeSetEntries duringDrain).Seals r.options Relation.Encodes := by
  exact h.withoutTypeSet.relationEntries_seals recorderThread .global duringDrain he _

theorem Sound.checkpointEntries_seals (h : r.Sound out r.epoch.current) (thread : ThreadInfo)
    (id : Option ThreadId) (mounted : Option ThreadInfo) :
    (r.checkpointEntries thread id mounted).Seals r.options Relation.Encodes := by
  unfold checkpointEntries
  cases mounted with
  | some v => exact h.relationEntries_seals v.id .virtualThreadLocal false rfl _
  | none => exact h.relationEntries_seals thread.id .threadLocal false rfl _

theorem Sound.rotationEntries_seals (h : r.Sound out r.epoch.current) :
    r.rotationEntries.Seals r.options Relation.Encodes := by
  unfold rotationEntries
  split
  · exact .nothing
  · refine h.staticAndThreadEntries_seals.append ?_
    have hfirst := h.writeStaticsAndThreads
    rcases hrun : Fallible.runOn Recorder.writeStaticsAndThreads r with ⟨fault | n, r₁⟩
    · exact .nothing
    · have ht := (hfirst.run_eq hrun).resolve_left (not_refused_ok n)
      exact ht.prepared.options ▸ (ht.sound.moveEpoch EpochController.raise).typeSetEntries_seals
        true (runOn_leaseEpoch_raise ht.epoch)

end Recorder

end TraceRecorder
