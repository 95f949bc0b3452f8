/-
# No entry is lost and none is doubled

Whatever is done with a recorder, and whatever its sinks refuse, the entries that writers published
are just those that sinks accepted, that buffers still hold, that were discarded, and that a drain
had detached when the sink refused (`Booked.conserved`).  Every step settles its own ledger, and
ledgers add up along a run.
-/
import TraceRecorder.Proofs.Run.Steps

namespace TraceRecorder

namespace Run

variable {options : RecorderOptions} {run run' run'' : Run} {l m : Ledger}

/-! ## 1. Ledgers add up -/

theorem Settles.refl (run : Run) : Settles run run {} where
  entries x := by
    rw [Entry.split_nil]
    rfl
  row := Entry.isRow_nil
  recorded _ := (List.append_nil _).symm
  cut := rfl
  last := rfl

/-- **One part of a run after the other** settles both ledgers together. -/
theorem Settles.trans (h : Settles run run' l) (h' : Settles run' run'' m) :
    Settles run run'' (l ++ m) where
  entries x := by
    have hx := h.entries x
    have hx' := h'.entries x
    simp only [Ledger.accepted_append, Ledger.discarded_append, Ledger.unsent_append,
      Ledger.published_append, h.row.split_append, Published.count_entries_append,
      List.count_append] at hx hx' ⊢
    omega
  row := h.row.append h'.row
  recorded hb := by
    rw [Ledger.brought_append] at hb
    obtain ⟨hl, hm⟩ := List.append_eq_nil_iff.1 hb
    rw [h'.recorded hm, h.recorded hl, List.append_assoc]
    rfl
  cut := by
    rw [h'.cut, h.cut, Ledger.published_append, Published.cut_append, List.length_append,
      Nat.add_assoc]
  last := by
    rw [h'.last, h.last, Ledger.published_append, Published.last_append, List.length_append,
      Nat.add_assoc]

/-- **A run settles its ledger**, from the new recorder on.  All its moves settle theirs
(`Sound.step`), and settling is transitive. -/
theorem Booked.settles (h : Booked options run l) :
    ∃ r, r.pooled = [] ∧ r.sink = none ∧ r.stats = { buffersAllocated := options.preallocated } ∧
      Settles { recorder := r } run l := by
  induction h with
  | create h =>
    obtain ⟨-, hp, hs, hstats⟩ := Recorder.sound_create h
    exact ⟨_, hp, hs, hstats, .refl _⟩
  | step c m hm ih =>
    obtain ⟨r, hp, hs, hstats, hsettles⟩ := ih
    exact ⟨r, hp, hs, hstats, hsettles.trans (c.reachable.sound.step m hm).2⟩

/-! ## 2. The books balance -/

/-- **Conservation of entries.**  In every run the published entries are those in the bytes that
sinks accepted, those in pooled buffers and in the buffers of open writers, those that were
discarded and those that a drain detached but did not send, each as often as it was published.
Both the accepted bytes and those of every buffer are whole entries, one behind the other; and what
was published is counted, flushpoints and last entries apart. -/
theorem Booked.conserved (h : Booked options run l) :
    l.published.entries.Perm
      (Entry.split l.accepted ++ (run.recorder.pooled ++ run.held).flatMap Buffer.entries ++
        l.discarded ++ l.unsent) ∧
    (l.brought = [] → run.recorded = l.accepted) ∧ Entry.IsRow l.accepted ∧
    (∀ b ∈ run.recorder.pooled ++ run.held, Entry.IsRow b.committed.bytes) ∧
    l.published.cut.length = run.recorder.stats.flushes ∧
    l.published.last.length = run.recorder.stats.checkpointsWritten := by
  obtain ⟨r, hp, hs, hstats, hsettles⟩ := h.settles
  have hsound := h.reachable.sound
  refine ⟨?_, ?_, hsettles.row, fun b hb => hsound.recorder.isRow hb, ?_, ?_⟩
  · rw [List.perm_iff_count]
    intro x
    have hx := hsettles.entries x
    have hnone : ({ recorder := r } : Run).entries.count x = 0 := by
      rw [entries, Recorder.entries, hp]
      rfl
    rw [hnone] at hx
    simp only [entries, Recorder.entries, List.count_append, List.flatMap_append] at hx ⊢
    omega
  · intro hb
    have hnone : ({ recorder := r } : Run).recorded = [] := by
      rw [recorded_eq, Recorder.chunk, hs]
      rfl
    rw [hsettles.recorded hb, hnone, List.nil_append]
  · rw [hsettles.cut, hstats]
    exact (Nat.zero_add _).symm
  · rw [hsettles.last, hstats]
    exact (Nat.zero_add _).symm

/-- A checkpoint in two pieces, of which the sink refuses the second one: one entry is in the chunk
and one was not sent. -/
theorem Booked.conserved_refused :
    let moves : List Move :=
      [.installSink { appendFault := fun n => if n = 1 then some { kind := .internal } else none },
        .start 7 .threadLocal, .append 0 (List.replicate 20 1), .append 0 (List.replicate 40 2),
        .finish 0, .write]
    let l := small.book {} moves
    let run := small.walk moves
    l.published.entries.Perm
      (Entry.split l.accepted ++ (run.recorder.pooled ++ run.held).flatMap Buffer.entries ++
        l.discarded ++ l.unsent) ∧
      l.published.cut.length = 1 ∧ l.published.last.length = 1 ∧ l.accepted.length = 52 ∧
      l.unsent.length = 1 := by
  intro moves l run
  have h : Booked smallOptions run l := (Booked.create create_small).walk moves (by decide +kernel)
  exact ⟨h.conserved.1, by decide +kernel, by decide +kernel, by decide +kernel, by decide +kernel⟩

end Run

end TraceRecorder
