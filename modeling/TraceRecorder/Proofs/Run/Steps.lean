/-
# What a move does to a run

A run is sound (`Run.Sound`) if its recorder is, the buffers of the open writers being out, and if
every open writer is active in the current epoch.  So a drain, which waits until no writer is
active there, finds that all buffers are back.

A drain that uses its sink has buffers that no writer holds.  While they are lent to it writers go
on (`Run.Lends`), and a sound run is one in which none are.

`Move.ledger` says what becomes of entries in a move.  Every admitted move keeps a run sound and
settles that ledger (`Sound.step`), and one that leaves drains and sinks alone does so whatever is
lent (`Lends.step`).  The moves are of four sorts:

* a writer begins, takes a segment or ends: a trade with the buffer of one writer;
* the recorder writes on its own behalf: a trade that brings all buffers back;
* a drain, which may flip the epoch while no buffer is out;
* anything that touches neither buffers nor entries.
-/
import Mathlib.Data.List.Perm.Basic
import TraceRecorder.Proofs.Recorder.Rotations
import TraceRecorder.Recorder.Run

namespace TraceRecorder

open Fallible (Ends)

/-! ## 1. The epoch protocol -/

namespace EpochController

variable {c : EpochController}

theorem of_enter_current : c.enter.writers.of c.current = c.writers.of c.current + 1 := by
  obtain ⟨_ | _, ⟨m, n⟩, barrier, shifts⟩ := c <;> rfl

theorem of_enter_other : c.enter.writers.of c.current.other = c.writers.of c.current.other := by
  obtain ⟨_ | _, ⟨m, n⟩, barrier, shifts⟩ := c <;> rfl

theorem of_leave_current :
    (c.leave c.current).writers.of c.current = c.writers.of c.current - 1 := by
  obtain ⟨_ | _, ⟨m, n⟩, barrier, shifts⟩ := c <;> rfl

theorem of_leave_other :
    (c.leave c.current).writers.of c.current.other = c.writers.of c.current.other := by
  obtain ⟨_ | _, ⟨m, n⟩, barrier, shifts⟩ := c <;> rfl

/-- **Every open writer is active in the current epoch**, and nobody else is active. -/
structure Serves (c : EpochController) (ws : List Writer) : Prop where
  barrier : c.barrier = none
  writers : ∀ w ∈ ws, w.Valid c.current ∧ w.pinned = some c.current
  active : c.writers.of c.current = ws.length
  idle : c.writers.of c.current.other = 0

namespace Serves

variable {ws : List Writer} {w : Writer}

theorem enter (h : c.Serves ws) (hv : w.Valid c.current) (hp : w.pinned = some c.current) :
    c.enter.Serves (ws ++ [w]) where
  barrier := h.barrier
  writers x hx := by
    rcases List.mem_append.1 hx with hx | hx
    · exact h.writers x hx
    · rw [List.mem_singleton.1 hx]
      exact ⟨hv, hp⟩
  active := by
    rw [List.length_append, ← h.active]
    exact of_enter_current
  idle := of_enter_other.trans h.idle

theorem set (h : c.Serves ws) (i : Nat) (hv : w.Valid c.current)
    (hp : w.pinned = some c.current) : c.Serves (ws.set i w) where
  barrier := h.barrier
  writers x hx := by
    rcases List.mem_or_eq_of_mem_set hx with hx | rfl
    · exact h.writers x hx
    · exact ⟨hv, hp⟩
  active := by rw [List.length_set, h.active]
  idle := h.idle

theorem leave (h : c.Serves ws) {i : Nat} (hi : i < ws.length) :
    (c.leave c.current).Serves (ws.eraseIdx i) where
  barrier := h.barrier
  writers x hx := h.writers x (List.mem_of_mem_eraseIdx hx)
  active := by
    rw [List.length_eraseIdx_of_lt hi, ← h.active]
    exact of_leave_current
  idle := of_leave_other.trans h.idle

theorem shifted (h : c.Serves []) : c.shifted.Serves [] where
  barrier := h.barrier
  writers x hx := absurd hx List.not_mem_nil
  active := h.idle
  idle := by
    show c.writers.of c.current.other.other = 0
    rw [Epoch.other_other]
    exact h.active

end Serves

end EpochController

/-! ## 2. Sound runs -/

/-- **The move neither drains nor has to do with the sink.** -/
def Move.quiet : Move → Bool
  | write | flushTypeSet | clear | shift | rotate | installSink _ | replaceSink _ => false
  | _ => true

namespace Run

def held (run : Run) : List Buffer := run.writers.filterMap Writer.buffer

/-- **The entries of all buffers**, pooled or held by open writers. -/
def entries (run : Run) : List Bytes := run.recorder.entries run.held

/-- **Each buffer is in one place, and each open writer is active in the current epoch.** -/
structure Sound (options : RecorderOptions) (run : Run) : Prop
    extends run.recorder.epoch.Serves run.writers where
  recorder : run.recorder.Sound run.held run.recorder.epoch.current
  options : run.recorder.options = options

/-- **A run that is sound but for some buffers that are lent** to somebody who is no writer. -/
structure Lends (options : RecorderOptions) (run : Run) (lent : List Buffer) : Prop
    extends run.recorder.epoch.Serves run.writers where
  recorder : run.recorder.Sound (run.held ++ lent) run.recorder.epoch.current
  options : run.recorder.options = options

theorem Sound.lends {options : RecorderOptions} {run : Run} (h : run.Sound options) :
    run.Lends options [] where
  toServes := h.toServes
  recorder := by
    rw [List.append_nil]
    exact h.recorder
  options := h.options

theorem Lends.sound {options : RecorderOptions} {run : Run} (h : run.Lends options []) :
    run.Sound options where
  toServes := h.toServes
  recorder := by
    have hr := h.recorder
    rwa [List.append_nil] at hr
  options := h.options

/-- **Those who hold buffers have the entries that they should have** by a ledger.  The bytes of
the chunks are what sinks accepted, unless a new sink brought some. -/
structure Settles (run run' : Run) (l : Ledger) : Prop where
  entries : ∀ x, run'.entries.count x + (Entry.split l.accepted).count x +
    l.discarded.count x + l.unsent.count x = run.entries.count x + l.published.entries.count x
  row : Entry.IsRow l.accepted
  recorded : l.brought = [] → run'.recorded = run.recorded ++ l.accepted
  cut : run'.recorder.stats.flushes = run.recorder.stats.flushes + l.published.cut.length
  last : run'.recorder.stats.checkpointsWritten =
    run.recorder.stats.checkpointsWritten + l.published.last.length

end Run

/-- **What becomes of entries in a move.** -/
def Move.ledger (m : Move) (run : Run) : Ledger :=
  let r := run.recorder
  match m with
  | .append writer segment =>
    { published.cut := (run.writers[writer]?.bind (·.cutOff? segment r.clock)).toList }
  | .finish writer =>
    { published.last := (run.writers[writer]?.bind (·.lastPiece? r.clock)).toList }
  | .writeStatics thread => { published := r.staticEntries thread }
  | .writeThreads thread => { published := r.threadEntries thread }
  | .writeStaticsAndThreads => { published := r.staticAndThreadEntries }
  | .writeTypeSet => { published := r.typeSetEntries false }
  | .writeCheckpoint thread id mounted => { published := r.checkpointEntries thread id mounted }
  | .writeSimplified id =>
    { published := r.relationEntries id .virtualThreadLocal false [ThreadInfo.simplified id] }
  | .write =>
    { accepted := r.sent Recorder.detachForWrite, unsent := r.unsent Recorder.detachForWrite }
  | .flushTypeSet =>
    { published := r.waitingEntries
      accepted := r.sent Recorder.detachForFlush
      unsent := r.unsent Recorder.detachForFlush }
  | .rotate =>
    { published := r.rotationEntries
      accepted := r.sent Recorder.detachForRotation
      unsent := r.unsent Recorder.detachForRotation }
  | .clear => { discarded := r.pooled.flatMap Buffer.entries }
  | .installSink sink | .replaceSink sink =>
    { brought := if (run.fault? m).isNone then sink.content else [] }
  | _ => {}

/-! ## 3. Operations on the recorder -/

namespace Recorder

/-- **What an operation does to a recorder while the same buffers are out.**  It flips the epoch at
most while no writer is active. -/
structure Proceeds (r : Recorder) (out : List Buffer) (r' : Recorder) (l : Ledger) : Prop where
  sound : r'.Sound out r'.epoch.current
  options : r'.options = r.options
  epoch : r'.epoch = r.epoch ∨
    (r.epoch.writers.of r.epoch.current = 0 ∧ r'.epoch = r.epoch.shifted)
  settles : Settles r out r' out l

variable {r r' : Recorder} {out : List Buffer} {p : Published} {l : Ledger}

theorem Proceeds.of_epoch_eq (hs : r'.Sound out r.epoch.current) (ho : r'.options = r.options)
    (he : r'.epoch = r.epoch) (hl : Settles r out r' out l) : Proceeds r out r' l :=
  ⟨he ▸ hs, ho, .inl he, hl⟩

/-- **A trade that brings all buffers back.** -/
theorem Trades.proceeds (h : Trades r out r' out r.epoch.current p) :
    Proceeds r out r' { published := p } :=
  .of_epoch_eq h.sound h.prepared.options h.epoch h.settles

theorem Sound.proceeds (h : r.Sound out r.epoch.current)
    (hs : ∀ kind, r'.space kind = r.space kind) (ho : r'.options = r.options)
    (he : r'.epoch = r.epoch) (hsink : r'.chunk = r.chunk)
    (ha : r'.stats.buffersAllocated = r.stats.buffersAllocated)
    (hd : r'.stats.buffersDeallocated = r.stats.buffersDeallocated)
    (hc : r'.stats.flushes = r.stats.flushes)
    (hl : r'.stats.checkpointsWritten = r.stats.checkpointsWritten) : Proceeds r out r' {} := by
  refine .of_epoch_eq (h.alike hs ho ha hd) ho he (.nothing ?_ hsink hc hl)
  intro x
  rw [entries, entries, pooled_eq_of_space_eq hs]

end Recorder

namespace Run

variable {options : RecorderOptions} {run : Run} {lent : List Buffer} {l : Ledger}

theorem recorded_eq (run : Run) :
    run.recorded = run.finished.flatMap Sink.content ++ run.recorder.chunk := List.flatMap_append

/-- **A recorder that settles a ledger takes the run along.**  What is lent meanwhile is of no
account. -/
theorem settles_of_recorder {r : Recorder} (ws : List Writer)
    (h : run.recorder.Settles (run.held ++ lent) r (ws.filterMap Writer.buffer ++ lent) l) :
    Settles run { run with recorder := r, writers := ws } l where
  entries x := by
    have hx := h.entries x
    rw [Recorder.entries_append, Recorder.entries_append, List.count_append,
      List.count_append] at hx
    simp only [entries, held]
    simp only [held] at hx
    omega
  row := h.row
  recorded _ := by
    rw [recorded_eq, recorded_eq, List.append_assoc]
    exact congrArg (_ ++ ·) h.chunk
  cut := h.cut
  last := h.last

/-- **A recorder that proceeds takes the run along.**  The open writers keep their buffers, and what
is lent besides stays lent; so all that changes hands is what the ledger says. -/
theorem Lends.proceed (h : run.Lends options lent) {r : Recorder}
    (hr : run.recorder.Proceeds (run.held ++ lent) r l) :
    ({ run with recorder := r } : Run).Lends options lent ∧
      Settles run { run with recorder := r } l := by
  have hserves : r.epoch.Serves run.writers := by
    rcases hr.epoch with he | ⟨hidle, he⟩
    · rw [he]
      exact h.toServes
    · have hserves := h.toServes
      rw [List.length_eq_zero_iff.1 (h.active.symm.trans hidle)] at hserves ⊢
      rw [he]
      exact hserves.shifted
  exact ⟨⟨hserves, hr.sound, hr.options.trans h.options⟩, settles_of_recorder _ hr.settles⟩

theorem Sound.proceed (h : run.Sound options) {r : Recorder}
    (hr : run.recorder.Proceeds run.held r l) :
    ({ run with recorder := r } : Run).Sound options ∧
      Settles run { run with recorder := r } l := by
  rw [← List.append_nil run.held] at hr
  exact (h.lends.proceed hr).imp Lends.sound id

theorem Lends.still (h : run.Lends options lent) : run.Lends options lent ∧ Settles run run {} :=
  h.proceed (.of_epoch_eq h.recorder rfl rfl (Recorder.Trades.refl h.recorder).settles)

theorem Sound.still (h : run.Sound options) : run.Sound options ∧ Settles run run {} :=
  h.lends.still.imp Lends.sound id

theorem not_refused {α : Type} {answer : Except Fault α}
    (hg : (faultOf answer).all (fun fault => !fault.endsThread) = true) : ¬ Refused answer := by
  rintro ⟨fault, rfl, hf⟩
  simp [faultOf, hf] at hg

theorem not_refused_rotate (hg : Move.rotate.granted run = true) :
    ¬ Refused (Fallible.runOn Recorder.rotate run.recorder).1 := not_refused hg

/-- **An operation that proceeds unless memory is refused** keeps the run sound and settles its
ledger, since a move for which memory is refused is not admitted. -/
theorem Lends.perform {α : Type} {x : Action α} (h : run.Lends options lent)
    (hg : (run.perform x).1.all (fun fault => !fault.endsThread) = true)
    (hx : Ends x run.recorder fun answer r =>
      Refused answer ∨ run.recorder.Proceeds (run.held ++ lent) r l) :
    (run.perform x).2.Lends options lent ∧ Settles run (run.perform x).2 l := by
  have hpost := hx.resolve_left (not_refused hg)
  unfold Run.perform
  rcases hrun : Fallible.runOn x run.recorder with ⟨answer, r⟩
  rw [hrun] at hpost
  exact h.proceed hpost

theorem Sound.perform {α : Type} {x : Action α} (h : run.Sound options)
    (hg : (run.perform x).1.all (fun fault => !fault.endsThread) = true)
    (hx : Ends x run.recorder fun answer r =>
      Refused answer ∨ run.recorder.Proceeds run.held r l) :
    (run.perform x).2.Sound options ∧ Settles run (run.perform x).2 l := by
  rw [← List.append_nil run.held] at hx
  exact (h.lends.perform hg hx).imp Lends.sound id

/-- **A checkpoint of the recorder itself** brings all buffers back. -/
theorem Lends.publish {α : Type} {x : Action α} {p : Published} (h : run.Lends options lent)
    (hg : (run.perform x).1.all (fun fault => !fault.endsThread) = true)
    (hx : Ends x run.recorder fun answer r => Refused answer ∨
      run.recorder.Trades (run.held ++ lent) r (run.held ++ lent) run.recorder.epoch.current p) :
    (run.perform x).2.Lends options lent ∧ Settles run (run.perform x).2 { published := p } :=
  h.perform hg (hx.mono fun _ _ hpost => hpost.imp id fun ht => ht.proceeds)

/-! ## 4. Writers -/

/-- The buffers that the other open writers hold. -/
def others (run : Run) (writer : Nat) : List Buffer :=
  (run.writers.eraseIdx writer).filterMap Writer.buffer

variable {writer : Nat} {w : Writer}

theorem perm_held (hw : run.writers[writer]? = some w) :
    (w.buffer.toList ++ run.others writer).Perm run.held := by
  obtain ⟨hlt, rfl⟩ := List.getElem?_eq_some_iff.1 hw
  have hp := (List.getElem_cons_eraseIdx_perm hlt).filterMap Writer.buffer
  cases hb : run.writers[writer].buffer with
  | none => rwa [List.filterMap_cons_none hb] at hp
  | some b => rwa [List.filterMap_cons_some hb] at hp

theorem perm_held_set (hw : run.writers[writer]? = some w) (w' : Writer) :
    (w'.buffer.toList ++ run.others writer).Perm
      ((run.writers.set writer w').filterMap Writer.buffer) := by
  obtain ⟨hlt, rfl⟩ := List.getElem?_eq_some_iff.1 hw
  have hp := (List.set_perm_cons_eraseIdx hlt w').symm.filterMap Writer.buffer
  cases hb : w'.buffer with
  | none => rwa [List.filterMap_cons_none hb] at hp
  | some b => rwa [List.filterMap_cons_some hb] at hp

theorem perm_seen (hw : run.writers[writer]? = some w) (lent : List Buffer) :
    (w.buffer.toList ++ (run.others writer ++ lent)).Perm (run.held ++ lent) := by
  rw [← List.append_assoc]
  exact (perm_held hw).append_right lent

theorem perm_seen_set (hw : run.writers[writer]? = some w) (w' : Writer) (lent : List Buffer) :
    (w'.buffer.toList ++ (run.others writer ++ lent)).Perm
      ((run.writers.set writer w').filterMap Writer.buffer ++ lent) := by
  rw [← List.append_assoc]
  exact (perm_held_set hw w').append_right lent

theorem Lends.seen (h : run.Lends options lent) (hw : run.writers[writer]? = some w) :
    run.recorder.Sound (w.buffer.toList ++ (run.others writer ++ lent))
        run.recorder.epoch.current ∧
      w.Valid run.recorder.epoch.current ∧ w.pinned = some run.recorder.epoch.current := by
  obtain ⟨hv, hp⟩ := h.writers w (List.mem_of_getElem? hw)
  exact ⟨h.recorder.perm (perm_seen hw lent).symm, hv, hp⟩

theorem Sound.seen (h : run.Sound options) (hw : run.writers[writer]? = some w) :
    run.recorder.Sound (w.buffer.toList ++ run.others writer) run.recorder.epoch.current ∧
      w.Valid run.recorder.epoch.current ∧ w.pinned = some run.recorder.epoch.current := by
  obtain ⟨hv, hp⟩ := h.writers w (List.mem_of_getElem? hw)
  exact ⟨h.recorder.perm (perm_held hw).symm, hv, hp⟩

/-- **One more writer is open.** -/
theorem Lends.start (h : run.Lends options lent) (thread : ThreadId) (kind : BufferKind)
    (hg : (run.start thread kind).1.all (fun fault => !fault.endsThread) = true) :
    (run.start thread kind).2.Lends options lent ∧ Settles run (run.start thread kind).2 {} := by
  have hstart := Writer.ends_start h.recorder thread kind false rfl
  unfold Run.start at hg ⊢
  rcases hrun : Fallible.runOn (Writer.start thread kind false) run.recorder with ⟨fault | w, r⟩
  · have hf : fault.endsThread = true := hstart.run_eq hrun
    rw [hrun] at hg
    simp [hf] at hg
  · obtain ⟨ht, hw, -, -, hid⟩ := hstart.run_eq hrun
    obtain ⟨-, -, -, hpinned⟩ := Writer.identity_eq_iff.1 hid
    have hepoch : r.epoch = run.recorder.epoch.enter := ht.epoch
    have hc : r.epoch.current = run.recorder.epoch.current := by
      rw [hepoch]
      rfl
    have hheld : (w.buffer.toList ++ run.held).Perm
        ((run.writers ++ [w]).filterMap Writer.buffer) := by
      rw [List.filterMap_append]
      refine List.perm_append_comm.trans (List.Perm.of_eq (congrArg (_ ++ ·) ?_))
      cases hb : w.buffer with
      | none => rw [List.filterMap_cons_none hb]; rfl
      | some b => rw [List.filterMap_cons_some hb]; rfl
    have ht := ht.perm (List.append_assoc _ _ _ ▸ hheld.append_right lent)
    have hserves : r.epoch.Serves (run.writers ++ [w]) := by
      rw [hepoch]
      exact h.toServes.enter (.of_start hw) hpinned
    have hsettles : run.recorder.Settles (run.held ++ lent) r
        ((run.writers ++ [w]).filterMap Writer.buffer ++ lent) {} :=
      ⟨ht.settles.entries, ht.settles.row, ht.settles.chunk, ht.settles.cut, ht.settles.last⟩
    refine ⟨⟨hserves, ?_, ht.prepared.options.trans h.options⟩, settles_of_recorder _ hsettles⟩
    rw [hc]
    exact ht.sound

/-- **An open writer takes a segment.** -/
theorem Lends.append (h : run.Lends options lent) (writer : Nat) (segment : Bytes)
    (hg : (run.append writer segment).1.all (fun fault => !fault.endsThread) = true) :
    (run.append writer segment).2.Lends options lent ∧
      Settles run (run.append writer segment).2 { published.cut :=
        (run.writers[writer]?.bind (·.cutOff? segment run.recorder.clock)).toList } := by
  unfold Run.append at hg ⊢
  cases hw : run.writers[writer]? with
  | none => exact h.still
  | some w =>
    obtain ⟨hs, hv, hp⟩ := h.seen hw
    have happend := hv.append hs segment
    rcases hrun : Fallible.runOn (w.append segment) run.recorder with ⟨answer, r⟩
    obtain ⟨outcome, w', rfl, hid, hpost⟩ := happend.run_eq hrun
    rw [hw] at hg
    dsimp only at hg ⊢
    rw [hrun] at hg ⊢
    obtain ⟨ht, hv'⟩ := hpost.resolve_left (not_refused hg)
    have ht := (ht.perm_left (perm_seen hw lent).symm).perm (perm_seen_set hw w' lent)
    have hserves : r.epoch.Serves (run.writers.set writer w') := by
      rw [ht.epoch]
      obtain ⟨-, -, -, hpinned⟩ := Writer.identity_eq_iff.1 hid
      exact h.toServes.set writer hv' (hpinned.trans hp)
    exact ⟨⟨hserves, ht.epoch ▸ ht.sound, ht.prepared.options.trans h.options⟩,
      settles_of_recorder _ ht.settles⟩

/-- **The last thing that an open writer does**: its buffer comes back and it leaves its epoch. -/
theorem Lends.close {α : Type} {x : Writer → Action α} {p : Writer → Published}
    (h : run.Lends options lent) (writer : Nat)
    (hx : ∀ w out, w.Valid run.recorder.epoch.current →
      run.recorder.Sound (w.buffer.toList ++ out) run.recorder.epoch.current →
      Ends (x w) run.recorder fun _ r => ∃ r₁, r = w.left r₁ ∧
        run.recorder.Trades (w.buffer.toList ++ out) r₁ out run.recorder.epoch.current (p w)) :
    (run.close writer x).2.Lends options lent ∧ Settles run (run.close writer x).2
      { published := (run.writers[writer]?.map p).getD {} } := by
  unfold Run.close
  cases hw : run.writers[writer]? with
  | none => exact h.still
  | some w =>
    obtain ⟨hs, hv, hp⟩ := h.seen hw
    obtain ⟨hlt, -⟩ := List.getElem?_eq_some_iff.1 hw
    unfold Run.perform
    rcases hrun : Fallible.runOn (x w) run.recorder with ⟨answer, r⟩
    obtain ⟨r₁, rfl, ht⟩ := (hx w (run.others writer ++ lent) hv hs).run_eq hrun
    have hleft : w.left r₁ = r₁.moveEpoch (·.leave run.recorder.epoch.current) := by
      rw [Writer.left, hp]
    have hepoch : (w.left r₁).epoch = run.recorder.epoch.leave run.recorder.epoch.current := by
      rw [hleft, ← ht.epoch]
      rfl
    have hc : (w.left r₁).epoch.current = run.recorder.epoch.current := by
      rw [hepoch]
      rfl
    have ht := ht.perm_left (perm_seen hw lent).symm
    dsimp only [Option.map_some, Option.getD_some]
    rw [hrun]
    have hserves : (w.left r₁).epoch.Serves (run.writers.eraseIdx writer) := by
      rw [hepoch]
      exact h.toServes.leave hlt
    have hsettles : run.recorder.Settles (run.held ++ lent) (w.left r₁)
        ((run.writers.eraseIdx writer).filterMap Writer.buffer ++ lent) { published := p w } := by
      have hall := ht.settles
      rw [hleft]
      exact ⟨hall.entries, hall.row, hall.chunk, hall.cut, hall.last⟩
    refine ⟨⟨hserves, ?_, ?_⟩, settles_of_recorder _ hsettles⟩
    · show (w.left r₁).Sound _ (w.left r₁).epoch.current
      rw [hc, hleft]
      exact ht.sound.moveEpoch _
    · show (w.left r₁).options = options
      rw [hleft]
      exact ht.prepared.options.trans h.options

theorem Sound.current_eq {run' : Run} {w' : Writer} (h : run.Sound options)
    (h' : run'.Sound options) (hw : w ∈ run.writers) (hw' : w' ∈ run'.writers)
    (hp : w'.pinned = w.pinned) :
    run'.recorder.epoch.current = run.recorder.epoch.current := by
  have hpin := (h.writers w hw).2
  have hpin' := (h'.writers w' hw').2
  rw [hp, hpin] at hpin'
  exact (Option.some.inj hpin').symm

theorem Sound.runOn_start (h : run.Sound options) {thread : ThreadId} {kind : BufferKind}
    (hm : (Move.start thread kind).admitted run) :
    ∃ w r, Fallible.runOn (Writer.start thread kind false) run.recorder = (.ok w, r) ∧
      run.start thread kind =
        (none, { run with recorder := r, writers := run.writers ++ [w] }) := by
  have hstart := Writer.ends_start h.recorder thread kind false rfl
  have hg : (run.start thread kind).1.all (fun fault => !fault.endsThread) = true := hm.2
  unfold Run.start at hg ⊢
  rcases hrun : Fallible.runOn (Writer.start thread kind false) run.recorder with ⟨fault | w, r⟩
  · have hf : fault.endsThread = true := hstart.run_eq hrun
    rw [hrun] at hg
    simp [hf] at hg
  · exact ⟨w, r, rfl, rfl⟩

theorem Sound.runOn_append (h : run.Sound options) (hw : run.writers[writer]? = some w)
    {segment : Bytes} (hm : (Move.append writer segment).admitted run) :
    ∃ outcome w' r, Fallible.runOn (w.append segment) run.recorder = (.ok (outcome, w'), r) ∧
      ¬ Refused outcome ∧ run.append writer segment =
        (faultOf outcome, { run with recorder := r, writers := run.writers.set writer w' }) := by
  obtain ⟨hs, hv, -⟩ := h.seen hw
  have hg : (run.append writer segment).1.all (fun fault => !fault.endsThread) = true := hm.2
  unfold Run.append at hg ⊢
  rw [hw] at hg ⊢
  dsimp only at hg ⊢
  rcases hrun : Fallible.runOn (w.append segment) run.recorder with ⟨answer, r⟩
  obtain ⟨outcome, w', rfl, -⟩ := (hv.append hs segment).run_eq hrun
  rw [hrun] at hg
  exact ⟨outcome, w', r, rfl, not_refused hg, rfl⟩

theorem close_eq {α : Type} {x : Writer → Action α} (hw : run.writers[writer]? = some w) :
    (run.close writer x).2 = { run with
      recorder := (Fallible.runOn (x w) run.recorder).2
      writers := run.writers.eraseIdx writer } := by
  rw [Run.close, hw]
  rfl

/-! ## 5. Drains -/

/-- **A drain begins while no writer is open**, so no buffer is out. -/
theorem Sound.writers_eq_nil (h : run.Sound options) (hd : run.recorder.admitsDrain = true) :
    run.writers = [] := by
  rw [Recorder.admitsDrain, EpochController.admitsBarrier, Bool.and_eq_true, beq_iff_eq] at hd
  exact List.length_eq_zero_iff.1 (h.active.symm.trans hd.2)

theorem held_eq_nil (hw : run.writers = []) : run.held = [] := by
  rw [held, hw]
  rfl

theorem Sound.proceeds_write (h : run.Sound options) :
    Ends Recorder.write run.recorder fun _ r => run.recorder.Proceeds run.held r
      { accepted := run.recorder.sent Recorder.detachForWrite
        unsent := run.recorder.unsent Recorder.detachForWrite } := by
  refine (h.recorder.write h.barrier).mono ?_
  rintro answer r ⟨hsettles, ⟨rfl, -, -⟩ | ⟨s, s', -, hsur, hs, -, -⟩⟩
  · exact .of_epoch_eq h.recorder rfl rfl hsettles
  · exact .of_epoch_eq hs (Recorder.options_eq_of_surroundings_eq hsur :)
      (Recorder.epoch_eq_of_surroundings_eq hsur :) hsettles

theorem Sound.proceeds_clear (h : run.Sound options) :
    Ends Recorder.clear run.recorder fun _ r => run.recorder.Proceeds run.held r
      { discarded := run.recorder.pooled.flatMap Buffer.entries } := by
  refine (h.recorder.clear h.barrier).mono ?_
  rintro answer r ⟨-, hs, -, hsur, hsettles⟩
  exact .of_epoch_eq hs (Recorder.options_eq_of_surroundings_eq hsur)
    (Recorder.epoch_eq_of_surroundings_eq hsur) hsettles

/-- **A shift** flips the epoch while no writer is open and all that is pooled is empty. -/
theorem Sound.proceeds_shift (h : run.Sound options) (hw : run.writers = []) :
    Ends Recorder.shift run.recorder fun _ r => run.recorder.Proceeds run.held r {} := by
  refine (h.recorder.shift h.barrier).mono ?_
  rintro answer r (⟨-, -, rfl⟩ | ⟨-, hempty, -, rfl⟩ | ⟨-, -, -, rfl⟩)
  · exact .of_epoch_eq h.recorder rfl rfl (Recorder.Trades.refl h.recorder).settles
  · refine ⟨(h.recorder.retag ?_ _).moveEpoch _, rfl, .inr ⟨?_, rfl⟩, ?_⟩
    · rw [held_eq_nil hw, List.append_nil]
      exact hempty
    · rw [h.active, hw]
      rfl
    · exact .nothing (fun _ => rfl) rfl rfl rfl
  · exact h.recorder.proceeds (fun kind => by cases kind <;> rfl) rfl rfl rfl rfl rfl rfl rfl

theorem Sound.proceeds_rotate (h : run.Sound options) (hw : run.writers = []) :
    Ends Recorder.rotate run.recorder fun answer r => Refused answer ∨
      run.recorder.Proceeds run.held r
        { published := run.recorder.rotationEntries
          accepted := run.recorder.sent Recorder.detachForRotation
          unsent := run.recorder.unsent Recorder.detachForRotation } := by
  have hs := h.recorder
  rw [held_eq_nil hw] at hs ⊢
  refine (hs.rotate h.barrier).mono ?_
  rintro answer r hpost
  refine hpost.imp id ?_
  rintro ⟨hs', ho, hepoch, hsettles⟩
  refine ⟨hs', ho, hepoch.imp id fun he => ⟨?_, he⟩, hsettles⟩
  rw [h.active, hw]
  rfl

/-! ## 6. Sinks -/

/-- **The recorder gets its first sink**, unless it has one. -/
theorem Sound.installSink (h : run.Sound options) (sink : Sink) :
    (run.perform (Recorder.installSink sink)).2.Sound options ∧
      Settles run (run.perform (Recorder.installSink sink)).2
        { brought := if (run.perform (Recorder.installSink sink)).1.isNone then sink.content
            else [] } := by
  unfold Run.perform Recorder.installSink
  cases hs : run.recorder.sink with
  | some old =>
    simp only [Fallible.runOn_bind, Fallible.runOn_get, hs]
    exact h.still
  | none =>
    simp only [Fallible.runOn_bind, Fallible.runOn_get, hs]
    have hnone : run.recorder.chunk = [] := by
      rw [Recorder.chunk, hs]
      rfl
    refine ⟨⟨h.toServes, h.recorder.withSink sink, h.options⟩, ?_, Entry.isRow_nil, ?_, rfl, rfl⟩
    · intro x
      rw [Entry.split_nil]
      rfl
    · intro hbrought
      have hcontent : sink.content = [] := hbrought
      rw [recorded_eq, recorded_eq, hnone]
      simp [Recorder.chunk, Fallible.runOn_set, hcontent]

/-- **The next chunk begins**, unless the sink of the last one does not pass on what it took. -/
theorem Sound.replaceSink (h : run.Sound options) (sink : Sink) :
    (run.replaceSink sink).2.Sound options ∧ Settles run (run.replaceSink sink).2
      { brought := if (run.replaceSink sink).1.isNone then sink.content else [] } := by
  have hreplace := run.recorder.ends_replaceSink sink
  unfold Run.replaceSink
  rcases hrun : Fallible.runOn (Recorder.replaceSink sink) run.recorder with ⟨fault | old, r⟩
  · obtain ⟨sink', rfl, hcontent⟩ := hreplace.run_eq hrun
    have hchunk : ({ run.recorder with sink := sink' } : Recorder).chunk = run.recorder.chunk :=
      Recorder.flatMap_content_eq hcontent
    exact h.proceed (h.recorder.proceeds (fun kind => by cases kind <;> rfl) rfl rfl hchunk rfl rfl
      rfl rfl)
  · obtain ⟨rfl, hcontent⟩ := hreplace.run_eq hrun
    have hold : old.toList.flatMap Sink.content = run.recorder.chunk :=
      Recorder.flatMap_content_eq hcontent
    refine ⟨⟨h.toServes, h.recorder.withSink sink, h.options⟩, ?_, Entry.isRow_nil, ?_, rfl, rfl⟩
    · intro x
      rw [Entry.split_nil]
      rfl
    · intro hbrought
      have hcontent : sink.content = [] := hbrought
      rw [recorded_eq, recorded_eq]
      simp [Recorder.chunk, Recorder.withSink, hcontent, hold]

/-! ## 7. Moves -/

theorem ledger_of_not_drains (run : Run) {m : Move} (h : m.drains = false) :
    (m.ledger run).accepted = [] ∧ (m.ledger run).discarded = [] ∧ (m.ledger run).unsent = [] := by
  cases m <;> first | exact ⟨rfl, rfl, rfl⟩ | cases h

/-- **An admitted quiet move settles its ledger**, whatever is lent meanwhile.  Quiet moves may come
between the two halves of a drain, when the detached buffers are lent to it; so this is what
interleaving needs. -/
theorem Lends.step (h : run.Lends options lent) {m : Move} (hq : m.quiet = true)
    (hm : m.admitted run) :
    (run.step m).Lends options lent ∧ Settles run (run.step m) (m.ledger run) := by
  obtain ⟨-, hg⟩ := hm
  have hr := h.recorder
  cases m with
  | start thread kind => exact h.start thread kind hg
  | append writer segment => exact h.append writer segment hg
  | finish writer =>
    have hclose := h.close (x := Writer.finish)
      (p := fun w => ⟨[], (w.lastPiece? run.recorder.clock).toList⟩) writer ?_
    · refine ⟨hclose.1, ?_⟩
      have hp : (run.writers[writer]?.map fun w =>
          (⟨[], (w.lastPiece? run.recorder.clock).toList⟩ : Published)).getD {} =
          ⟨[], (run.writers[writer]?.bind (·.lastPiece? run.recorder.clock)).toList⟩ := by
        cases run.writers[writer]? <;> rfl
      rw [hp] at hclose
      exact hclose.2
    · intro w out hv hs
      exact (hv.finish hs).mono fun _ _ ⟨n, r₁, _, hleft, ht, _⟩ => ⟨r₁, hleft, ht⟩
  | abandon writer =>
    have hclose := h.close (x := Writer.abandon) (p := fun _ => {}) writer ?_
    · refine ⟨hclose.1, ?_⟩
      have hp : (run.writers[writer]?.map fun _ => ({} : Published)).getD {} = {} := by
        cases run.writers[writer]? <;> rfl
      rw [hp] at hclose
      exact hclose.2
    · intro w out hv hs
      exact (hv.abandon hs).mono fun _ _ ⟨r₁, _, hleft, ht⟩ => ⟨r₁, hleft, ht⟩
  | releaseThread thread =>
    exact h.publish hg ((hr.releaseThread thread).mono fun _ _ hpost => .inr hpost.2)
  | writeStatics thread => exact h.publish hg (hr.writeStatics thread)
  | writeThreads thread => exact h.publish hg (hr.writeThreads thread)
  | writeStaticsAndThreads => exact h.publish hg hr.writeStaticsAndThreads
  | writeTypeSet =>
    refine h.perform hg ((hr.writeTypeSet false rfl).mono fun _ r' hpost => hpost.imp id ?_)
    intro ht
    have hs := ht.settles
    exact .of_epoch_eq ht.sound ht.prepared.options ht.epoch
      ⟨hs.entries, hs.row, hs.chunk, hs.cut, hs.last⟩
  | writeCheckpoint thread id mounted => exact h.publish hg (hr.writeCheckpoint thread id mounted)
  | writeSimplified id =>
    exact h.publish hg
      (hr.writeRelations id .virtualThreadLocal false rfl [ThreadInfo.simplified id])
  | registerStatic | changeStatic | registerConstant | clearTypeSet | purgeUnloading | changeHost
  | setClock | notifyThreads =>
    exact h.proceed (hr.proceeds (fun kind => by cases kind <;> rfl) rfl rfl rfl rfl rfl rfl rfl)
  | write | flushTypeSet | clear | shift | rotate | installSink | replaceSink => cases hq

/-- **An admitted move keeps a run sound and settles its ledger.**  This is the step of the
induction on which all that is said of reachable runs rests: each buffer stays in one place, each
open writer in the current epoch, and each entry is accounted for. -/
theorem Sound.step (h : run.Sound options) (m : Move) (hm : m.admitted run) :
    (run.step m).Sound options ∧ Settles run (run.step m) (m.ledger run) := by
  cases hq : m.quiet with
  | true => exact (h.lends.step hq hm).imp Lends.sound id
  | false =>
    obtain ⟨hd, hg⟩ := hm
    cases m with
    | write => exact h.perform hg (h.proceeds_write.mono fun _ _ hp => .inr hp)
    | flushTypeSet =>
      refine h.perform hg ((h.recorder.flushTypeSet h.barrier).mono fun _ _ hp => hp.imp id ?_)
      rintro ⟨hs, ho, he, hl⟩
      exact .of_epoch_eq hs ho he hl
    | clear => exact h.perform hg (h.proceeds_clear.mono fun _ _ hp => .inr hp)
    | shift =>
      exact h.perform hg
        ((h.proceeds_shift (h.writers_eq_nil (hd rfl))).mono fun _ _ hp => .inr hp)
    | rotate => exact h.perform hg (h.proceeds_rotate (h.writers_eq_nil (hd rfl)))
    | installSink sink => exact h.installSink sink
    | replaceSink sink => exact h.replaceSink sink
    | _ => cases hq

end Run

/-! ## 8. Whole runs -/

/-- A pool of a recorder that was made passes its check, and there was memory for it. -/
theorem Recorder.rules_of_create {options : RecorderOptions} {host : Host} {r : Recorder}
    (h : Recorder.create options host = .ok r) (kind : BufferKind) :
    (options.space kind).flaw? kind = none ∧
      ((options.space kind).preallocCount = 0 ∨
        Memory.refusal? host.memory.grants (options.space kind).bufferSize = none) := by
  unfold Recorder.create at h
  split at h
  · cases h
  · rename_i hflaw
    split at h
    · cases h
    · rename_i hshort
      unfold RecorderOptions.flaw? at hflaw
      unfold Recorder.shortage? at hshort
      simp only [Option.or_eq_none_iff] at hflaw
      rw [List.findSome?_eq_none_iff] at hshort
      refine ⟨by cases kind <;> simp [RecorderOptions.space, hflaw], ?_⟩
      have hkind := hshort (options.space kind)
        (List.mem_map.2 ⟨kind, by cases kind <;> decide, rfl⟩)
      split at hkind
      · exact .inl ‹_›
      · exact .inr hkind

/-- **A new recorder is sound**: all its buffers are free, so nothing is committed anywhere, and
what was allocated beforehand is counted. -/
theorem Recorder.sound_create {options : RecorderOptions} {host : Host} {r : Recorder}
    (h : Recorder.create options host = .ok r) :
    ({ recorder := r } : Run).Sound options ∧ r.pooled = [] ∧ r.sink = none ∧
      r.stats = { buffersAllocated := options.preallocated } := by
  have hrules := Recorder.rules_of_create h
  unfold Recorder.create at h
  split at h
  · cases h
  · split at h
    · cases h
    · cases h
      refine ⟨⟨⟨rfl, ?_, rfl, rfl⟩, ⟨?_, ?_, ?_, rfl, ?_⟩, rfl⟩, rfl, rfl, rfl⟩
      · intro w hw
        cases hw
      · intro kind
        have hs : (Space.create kind (options.space kind)).Sound [] :=
          Space.sound_create (hrules kind).1 (hrules kind).2
        cases kind <;> exact hs
      · intro kind
        cases kind <;> rfl
      · intro kind
        cases kind <;> rfl
      · intro l hl
        cases hl

namespace Run

variable {options : RecorderOptions} {run : Run} {l : Ledger}

/-- **Every run of a new recorder is sound.** -/
theorem Reachable.sound (h : Reachable options run) : run.Sound options := by
  induction h with
  | create h => exact (Recorder.sound_create h).1
  | step _ m hm ih => exact (ih.step m hm).1

/-- **A run and its ledger**: what has become of all entries so far. -/
inductive Booked (options : RecorderOptions) : Run → Ledger → Prop where
  | create {host : Host} {r : Recorder} (h : Recorder.create options host = .ok r) :
      Booked options { recorder := r } {}
  | step {run : Run} {l : Ledger} (c : Booked options run l) (m : Move) (h : m.admitted run) :
      Booked options (run.step m) (l ++ m.ledger run)

theorem Reachable.booked (h : Reachable options run) : ∃ l, Booked options run l := by
  induction h with
  | create h => exact ⟨{}, .create h⟩
  | step _ m hm ih =>
    obtain ⟨l, hl⟩ := ih
    exact ⟨l ++ m.ledger _, hl.step m hm⟩

theorem Booked.reachable (h : Booked options run l) : Reachable options run := by
  induction h with
  | create h => exact .create h
  | step _ m hm ih => exact ih.step m hm

def walk (run : Run) (moves : List Move) : Run := moves.foldl step run

/-- **All of some moves are admitted**, each where it is made. -/
def Admits (run : Run) : List Move → Prop
  | [] => True
  | m :: rest => m.admitted run ∧ (run.step m).Admits rest

instance decidableAdmits (run : Run) : (moves : List Move) → Decidable (run.Admits moves)
  | [] => isTrue trivial
  | m :: rest =>
    have := decidableAdmits (run.step m) rest
    inferInstanceAs (Decidable (m.admitted run ∧ (run.step m).Admits rest))

def book (run : Run) (l : Ledger) : List Move → Ledger
  | [] => l
  | m :: rest => (run.step m).book (l ++ m.ledger run) rest

theorem Reachable.walk (h : Reachable options run) (moves : List Move) (hm : run.Admits moves) :
    Reachable options (run.walk moves) := by
  induction moves generalizing run with
  | nil => exact h
  | cons m rest ih => exact ih (h.step m hm.1) hm.2

theorem Booked.walk (h : Booked options run l) (moves : List Move) (hm : run.Admits moves) :
    Booked options (run.walk moves) (run.book l moves) := by
  induction moves generalizing run l with
  | nil => exact h
  | cons m rest ih => exact ih (h.step m hm.1) hm.2

/-- The options of a recorder with two small buffers in each pool. -/
def smallOptions : RecorderOptions :=
  ⟨⟨64, 128, 1, 1, 2⟩, ⟨64, 128, 1, 1, 2⟩, ⟨64, 128, 1, 1, 2⟩, 2⟩

/-- A recorder with small pools, before the first move. -/
def small : Run where
  recorder :=
    { options := smallOptions
      global := .create .global smallOptions.global
      threadLocal := .create .threadLocal smallOptions.threadLocal
      virtualThreadLocal := .create .virtualThreadLocal smallOptions.virtualThreadLocal
      stats := { buffersAllocated := smallOptions.preallocated } }

theorem create_small : Recorder.create smallOptions {} = .ok small.recorder := rfl

end Run

end TraceRecorder
