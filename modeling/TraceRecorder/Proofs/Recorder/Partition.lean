/-
# How a checkpoint of relations is cut

What a writer cuts off and what it has left at its end are written from the relations that it was
given, in their order, each entry from those that came behind the last cut (`Entry.Cuttings`).  The
last relations are never cut off, so without a last entry they are in none.

* `TakingAll.cuttings`: a writer that is not gone goes on with the relations behind the last cut;
* `Sound.relationEntries_cuttings`: so a checkpoint is cut into entries of which all but the last
  are flushpoints, and each fits a buffer;
* `Sound.relationEntries_tell`: a checkpoint that has a last entry is complete (`Entry.Tell`).
-/
import TraceRecorder.Proofs.Chunk.Constants
import TraceRecorder.Proofs.Chunk.Identities
import TraceRecorder.Proofs.Recorder.Emissions

namespace TraceRecorder

open Fallible (Ends)

/-- The largest entry that can stand in a buffer. -/
def RecorderOptions.roomiest (o : RecorderOptions) (kind : BufferKind) : Nat :=
  min (o.space kind).maxBufferSize Memory.addressable

/-! ## 1. What is cut off -/

namespace Entry

theorem encode_draft (d : EntryDraft) :
    d.encode = piece (d.relations.map Relation.encode) d.startTime d.duration d.flushpoint := by
  rw [piece, List.length_map]
  rfl

/-- **A reader finds the relations** of a piece that is shorter than 2 ^ 32 bytes. -/
theorem frames_relations {run : List Relation} (startTime duration : UInt64) (flushpoint : Bool)
    (h : Header.length + (run.map Relation.encode).flatten.length < UInt32.size) :
    (piece (run.map Relation.encode) startTime duration flushpoint).length < UInt32.size ∧
      Frames (piece (run.map Relation.encode) startTime duration flushpoint)
        (run.map Relation.encode) startTime flushpoint := by
  have hcount : 16 * run.length ≤ (run.map Relation.encode).flatten.length :=
    Relation.mul_length_le run
  have hwords : UInt32.size < UInt64.size := by decide
  refine ⟨by rwa [length_piece], frames_piece _ _ _ (by omega) ?_⟩
  rw [List.length_map]
  omega

/-- **Entries are cut off some relations**, and others are left.  Each entry is a flushpoint of the
next few relations, which a word counts as some, and has at most `most` bytes.  The last relation
stays behind. -/
inductive Cuttings (most : Nat) (startTime : UInt64) (left : List Relation) :
    List Bytes → List Relation → Prop
  | none : Cuttings most startTime left [] left
  | cut {run : List Relation} {es : List Bytes} {relations : List Relation} (duration : UInt64)
      (hrun : UInt32.ofNat run.length ≠ 0)
      (hmost : Header.length + (run.map Relation.encode).flatten.length ≤ most)
      (hmore : relations ≠ []) (rest : Cuttings most startTime left es relations) :
      Cuttings most startTime left
        (piece (run.map Relation.encode) startTime duration true :: es) (run ++ relations)

namespace Cuttings

variable {most : Nat} {startTime : UInt64} {left relations : List Relation} {es es' : List Bytes}

theorem left_ne_nil (h : Cuttings most startTime left es relations) (hne : relations ≠ []) :
    left ≠ [] := by
  induction h with
  | none => exact hne
  | cut _ _ _ hmore _ ih => exact ih hmore

theorem left_suffix (h : Cuttings most startTime left es relations) : left <:+ relations := by
  induction h with
  | none => exact List.suffix_rfl
  | cut _ _ _ _ _ ih => exact ih.trans (List.suffix_append _ _)

/-- **In front of a checkpoint of what is left** they make a checkpoint of all. -/
theorem tell (h : Cuttings most startTime left es relations) (hleft : Tell startTime es' left) :
    Tell startTime (es ++ es') relations := by
  induction h with
  | none => exact hleft
  | @cut run es relations duration hrun _ _ _ ih =>
    have hall := Tell.cons (d := ⟨startTime, duration, true, run⟩) rfl
      (ne_nil_of_ofNat_length_ne_zero hrun) ih
    rwa [encode_draft] at hall

/-- **A reader finds the beginning of a checkpoint** in entries with 32-bit sizes. -/
theorem beginning (h : Cuttings most startTime left es relations) (hm : most < UInt32.size) :
    ∃ told, relations = told ++ left ∧ Beginning startTime es told := by
  induction h with
  | none => exact ⟨[], rfl, .none⟩
  | cut duration hrun hmost _ _ ih =>
    obtain ⟨told, rfl, hbeginning⟩ := ih
    obtain ⟨hsize, hframe⟩ :=
      frames_relations startTime duration true (Nat.lt_of_le_of_lt hmost hm)
    exact ⟨_, (List.append_assoc ..).symm,
      .cut hsize hframe (ne_nil_of_ofNat_length_ne_zero hrun) hbeginning⟩

/-- **A reader finds a checkpoint** if what is left is one. -/
theorem checkpoint (h : Cuttings most startTime left es relations) (hm : most < UInt32.size)
    (hleft : Checkpoint startTime es' left) : Checkpoint startTime (es ++ es') relations := by
  induction h with
  | none => exact hleft
  | cut duration hrun hmost _ _ ih =>
    obtain ⟨hsize, hframe⟩ :=
      frames_relations startTime duration true (Nat.lt_of_le_of_lt hmost hm)
    exact .cut hsize hframe (ne_nil_of_ofNat_length_ne_zero hrun) ih

end Cuttings

end Entry

/-! ## 2. A row of relations -/

namespace Writer

variable {w w' : Writer} {r r' : Recorder} {out : List Buffer} {b : Buffer} {e : Epoch}

theorem Holds.le_roomiest {run : List Bytes} (hw : w.Holds b run e) (h : r.Sound (b :: out) e) :
    Header.length + run.flatten.length ≤ r.options.roomiest w.kind := by
  have hin := h.fits.within
  have hmost := h.fits.most
  have hgranted := h.fits.granted
  rw [Buffer.position, hw.length_pending] at hin
  rw [hw.kind] at hmost
  exact Nat.le_min.2 ⟨by omega, by omega⟩

/-- **One relation more**, and what is cut off from there on: a run that it cuts off comes first. -/
theorem Holds.cutOff_cuttings {current left : List Relation} {later : List Bytes}
    (hw : w.Holds b (current.map Relation.encode) e) (h : r.Sound (b :: out) e)
    (relation : Relation) (relations : List Relation)
    (hlater : Entry.Cuttings (r.options.roomiest w.kind) w.startTime left later
      ((if w.Cuts b relation.encode then [relation] else current ++ [relation]) ++ relations)) :
    Entry.Cuttings (r.options.roomiest w.kind) w.startTime left
      ((w.cutOff? relation.encode r.clock).toList ++ later) (current ++ relation :: relations) := by
  rw [hw.cutOff?_eq]
  by_cases hc : w.Cuts b relation.encode
  · rw [if_pos hc] at hlater ⊢
    have hcurrent : UInt32.ofNat current.length ≠ 0 := by
      rw [← List.length_map, ← hw.segments]
      exact hc.1
    exact .cut _ hcurrent (hw.le_roomiest h) (List.cons_ne_nil _ _) hlater
  · rw [if_neg hc] at hlater ⊢
    rwa [List.append_assoc] at hlater

/-- **The writer goes on with some relations.** -/
structure GoesOn (w' w : Writer) (most : Nat) (left : List Relation) (e : Epoch) : Prop where
  holds : ∃ b, w'.Holds b (left.map Relation.encode) e
  startTime : w'.startTime = w.startTime
  fits : Header.length + (left.map Relation.encode).flatten.length ≤ most

/-- **Some relations are cut off in a row**, and a writer that is not gone goes on with those that
are left. -/
theorem TakingAll.cuttings {current relations : List Relation} {outcome : Except Fault Unit}
    {es : List Bytes} (htaking : w.TakingAll relations r outcome w' r' es)
    (hw : w.Holds b (current.map Relation.encode) e) (h : r.Sound (b :: out) e) :
    ∃ left, Entry.Cuttings (r.options.roomiest w.kind) w.startTime left es (current ++ relations) ∧
      (outcome = .ok () → w'.Gone ∨ w'.GoesOn w (r.options.roomiest w.kind) left e) := by
  induction htaking generalizing b current with
  | nothing w r =>
    rw [List.append_nil]
    exact ⟨current, .none, fun _ => .inr ⟨⟨b, hw⟩, rfl, hw.le_roomiest h⟩⟩
  | @failed w _ relation r _ _ _ rest =>
    have hcuttings := hw.cutOff_cuttings h relation rest .none
    rw [List.append_nil] at hcuttings
    exact ⟨_, hcuttings, fun hok => by cases hok⟩
  | @taken w w₁ w' relation rest r r₁ r' _ later hrun hrest ih =>
    obtain ⟨_, _, ⟨⟩, hid, hpost⟩ := (hw.append h relation.encode).run_eq hrun
    obtain ⟨ht, htook⟩ := hpost.resolve_left (not_refused_ok _)
    rcases htook with hgone | htook
    · -- A writer that is gone cuts off no more.
      obtain ⟨-, rfl, -, rfl⟩ := hrest.of_gone hgone
      exact ⟨_, hw.cutOff_cuttings h relation rest .none, fun _ => .inl hgone⟩
    obtain ⟨b₁, hb₁⟩ := htook.holds
    obtain ⟨-, hkind, htime, -⟩ := identity_eq_iff.1 hid
    have hb₁ : w₁.Holds b₁ (List.map Relation.encode
        (if w.Cuts b relation.encode then [relation] else current ++ [relation])) e := by
      rw [apply_ite (List.map Relation.encode), List.map_append]
      exact hb₁
    obtain ⟨left, hcuttings, hgoes⟩ := ih hb₁ (hb₁.sound ht.sound)
    rw [Recorder.options_eq_of_surroundings_eq ht.surroundings, hkind] at hcuttings hgoes
    rw [htime] at hcuttings
    refine ⟨left, hw.cutOff_cuttings h relation rest hcuttings, fun hok => (hgoes hok).imp id ?_⟩
    exact fun hgoes => ⟨hgoes.holds, hgoes.startTime.trans htime, hgoes.fits⟩

end Writer

/-! ## 3. Checkpoints of relations -/

namespace Recorder

variable {r : Recorder} {out : List Buffer} {e : Epoch}

/-- **How a checkpoint of relations is cut**: what is left is the last entry, if there is one. -/
theorem Sound.relationEntries_cuttings (h : r.Sound out e) (thread : ThreadId) (kind : BufferKind)
    (duringDrain : Bool) (he : Fallible.runOn (leaseEpoch duringDrain) r = (.ok e, r))
    (relations : List Relation) :
    ∃ left, Entry.Cuttings (r.options.roomiest kind) r.clock left
        (relationEntries thread kind duringDrain relations r).cut
        (relations.filter fun relation => !relation.isEmpty) ∧
      ((relationEntries thread kind duringDrain relations r).last = [] ∨
        (UInt32.ofNat left.length ≠ 0 ∧
          Header.length + (left.map Relation.encode).flatten.length ≤ r.options.roomiest kind ∧
          ∃ duration, (relationEntries thread kind duringDrain relations r).last =
            [Entry.piece (left.map Relation.encode) r.clock duration false])) := by
  obtain ⟨answer, r', hwriting⟩ := exists_writing thread kind duringDrain relations r
  have hbegan := Writer.ends_start h thread kind duringDrain he
  -- What a writer cuts off, once it has begun.
  have hcuttings : ∀ {w w' : Writer} {r₁ r₂ : Recorder} {outcome : Except Fault Unit}
      {es : List Bytes},
      Fallible.runOn (Writer.start thread kind duringDrain) r = (.ok w, r₁) →
      w.TakingAll (relations.filter fun relation => !relation.isEmpty) r₁ outcome w' r₂ es →
      w.startTime = r.clock ∧ ∃ left, Entry.Cuttings (r.options.roomiest kind) r.clock left es
          (relations.filter fun relation => !relation.isEmpty) ∧
        (outcome = .ok () → w'.Gone ∨ w'.GoesOn w (r.options.roomiest kind) left e) := by
    intro w w' r₁ r₂ outcome es hstart htaking
    obtain ⟨ht, hw, -, -, hid⟩ := hbegan.run_eq hstart
    obtain ⟨-, hkind, htime, -⟩ := Writer.identity_eq_iff.1 hid
    rcases hw with hgone | ⟨b, hb⟩
    · obtain ⟨-, rfl, -, rfl⟩ := htaking.of_gone hgone
      exact ⟨htime, _, .none, fun _ => .inl hgone⟩
    have hb' : w.Holds b (([] : List Relation).map Relation.encode) e := hb
    have hcuttings := htaking.cuttings hb' (hb.sound ht.sound)
    rw [options_eq_of_surroundings_eq ht.surroundings, Writer.options_entered, hkind,
      htime] at hcuttings
    exact ⟨htime, hcuttings⟩
  generalize relationEntries thread kind duringDrain relations r = published at hwriting ⊢
  cases hwriting with
  | nothing hrows => exact ⟨[], hrows ▸ .none, .inl rfl⟩
  | refused => exact ⟨_, .none, .inl rfl⟩
  | abandoned _ hstart htaking =>
    obtain ⟨-, left, hcuttings, -⟩ := hcuttings hstart htaking
    exact ⟨left, hcuttings, .inl rfl⟩
  | @ended _ w w' r₁ r₂ _ cut hrows hstart htaking =>
    obtain ⟨htime, left, hcuttings, hgoes⟩ := hcuttings hstart htaking
    refine ⟨left, hcuttings, ?_⟩
    rcases hgoes rfl with hgone | ⟨⟨b', hb'⟩, htime', hfits⟩
    · exact .inl (by rw [hgone.lastPiece?_eq, Option.toList_none])
    rw [hb'.lastPiece?_eq]
    by_cases hsegments : w'.segments = 0
    · exact .inl (by rw [if_pos hsegments, Option.toList_none])
    · refine .inr ⟨?_, hfits, w'.elapsed r₂.clock, ?_⟩
      · rwa [hb'.segments, List.length_map] at hsegments
      rw [if_neg hsegments, htime', htime, Option.toList_some]

/-- **A checkpoint that has a last entry is complete**: its entries tell all relations that have
pairs. -/
theorem Sound.relationEntries_tell (h : r.Sound out e) (thread : ThreadId) (kind : BufferKind)
    (duringDrain : Bool) (he : Fallible.runOn (leaseEpoch duringDrain) r = (.ok e, r))
    {relations : List Relation}
    (hlast : (relationEntries thread kind duringDrain relations r).last ≠ []) :
    Entry.Tell r.clock (relationEntries thread kind duringDrain relations r).entries
      (relations.filter fun relation => !relation.isEmpty) := by
  obtain ⟨left, hcuttings, hends⟩ :=
    h.relationEntries_cuttings thread kind duringDrain he relations
  obtain ⟨hleft, -, duration, hpiece⟩ := hends.resolve_left hlast
  rw [Published.entries, hpiece]
  refine hcuttings.tell ⟨[⟨r.clock, duration, false, left⟩],
    .last rfl rfl (Entry.ne_nil_of_ofNat_length_ne_zero hleft), ?_⟩
  rw [List.map_singleton, Entry.encode_draft]

end Recorder

end TraceRecorder
