/-
# Checkpoints that are given up

A writer can be given up in three ways: it finds no buffer and drops its checkpoint (`Starves`), it
is abandoned, or it ends without a segment.  In each of them it lets go of its buffer, and what is
left of it are the pieces that were flushed, the one of this move among them (`LetsGo`).

* A writer that dropped its checkpoint stays where it is until it ends, and nothing that it is asked
  to do changes anything (`Inert`).
* A checkpoint that was given a segment is counted once: as dropped when it finds no buffer, and
  otherwise as written when it ends.  A `Tenure` is the life of one writer with what was counted in
  its own moves.
-/
import TraceRecorder.Proofs.Recorder.Tallies
import TraceRecorder.Proofs.Run.Framing
import TraceRecorder.Proofs.Run.Ownership

namespace TraceRecorder

open Fallible (Ends)

namespace Run

variable {options : RecorderOptions} {run next : Run} {place : Nat} {w : Writer} {m : Move}
  {pieces : List Bytes}

/-! ## 1. What a writer leaves behind -/

/-- The buffer that an open writer holds, if it holds one. -/
def holding (run : Run) (place : Nat) : List Buffer :=
  (run.writers[place]?.bind Writer.buffer).toList

theorem holding_eq (hw : run.writers[place]? = some w) : run.holding place = w.buffer.toList := by
  rw [holding, hw]
  rfl

theorem others_of_none (hw : run.writers[place]? = none) : run.others place = run.held := by
  rw [others, List.eraseIdx_of_length_le (List.getElem?_eq_none_iff.1 hw)]
  rfl

theorem perm_holding (run : Run) (place : Nat) :
    (run.holding place ++ run.others place).Perm run.held := by
  cases hw : run.writers[place]? with
  | none =>
    rw [others_of_none hw, holding, hw]
    rfl
  | some w =>
    rw [holding_eq hw]
    exact perm_held hw

theorem filterMap_set_of_none {ws : List Writer} (hw : w.buffer = none) (hlt : place < ws.length) :
    (ws.set place w).filterMap Writer.buffer = (ws.eraseIdx place).filterMap Writer.buffer := by
  rw [List.set_eq_take_append_cons_drop, if_pos hlt, List.eraseIdx_eq_take_drop_succ,
    List.filterMap_append, List.filterMap_append, List.filterMap_cons_none hw]

/-- **A writer lets go in a move**, which meets no fault.  It holds no slot any more; what was
committed in its buffer is pooled, and beside that all that it leaves behind are some pieces that
were flushed in the move. -/
structure LetsGo (options : RecorderOptions) (run : Run) (m : Move) (place : Nat)
    (pieces : List Bytes) : Prop where
  fault : run.fault? m = none
  held : (run.step m).held = run.others place
  slots : ∀ kind, ((run.step m).recorder.space kind).Exclusive (options.space kind) kind
    ((run.others place).filter fun b => b.kind == kind)
  entries : ∀ x, ((run.step m).recorder.entries []).count x =
    (run.recorder.entries (run.holding place)).count x + pieces.count x
  flushes : (run.step m).recorder.stats.flushes = run.recorder.stats.flushes + pieces.length
  written : (run.step m).recorder.stats.checkpointsWritten = run.recorder.stats.checkpointsWritten

/-- **What a move publishes while a writer lets go** is what it leaves behind. -/
theorem Reachable.letsGo (h : Reachable options run) (hf : run.fault? m = none)
    (hd : m.drains = false) (hheld : (run.step m).held = run.others place)
    (hp : (m.ledger run).published = ⟨pieces, []⟩) : run.LetsGo options m place pieces := by
  have hm : m.admitted run := by
    refine ⟨fun hdrains => ?_, ?_⟩
    · rw [hd] at hdrains
      cases hdrains
    · rw [Move.granted, hf]
      rfl
  have hsettles := (h.sound.step m hm).2
  have hslots := (h.step m hm).sound.exclusivity
  rw [hheld] at hslots
  obtain ⟨haccepted, hdiscarded, hunsent⟩ := ledger_of_not_drains run hd
  refine ⟨hf, hheld, hslots, ?_, ?_, ?_⟩
  · intro x
    have hx := hsettles.entries x
    rw [haccepted, hdiscarded, hunsent, hp, Entry.split_nil] at hx
    have hperm := ((run.perm_holding place).flatMap_right Buffer.entries).count_eq x
    simp only [entries, Recorder.entries, hheld, List.flatMap_append, List.count_append,
      List.count_nil, List.flatMap_nil, Published.entries, Nat.add_zero] at hx hperm ⊢
    omega
  · rw [hsettles.cut, hp]
  · rw [hsettles.last, hp]
    rfl

/-! ## 2. No buffer is to be had -/

/-- **A writer finds no buffer in a move**, since its pool is exhausted: none to begin with, no
larger one for a first segment, or none to go on with behind a cut.  What was cut off just before is
all that is left of what was pending. -/
inductive Starves (run : Run) : Move → (place : Nat) → (pieces : List Bytes) → Prop where
  | beginning {thread : ThreadId} {kind : BufferKind} {fault : Fault} {r : Recorder}
      (hacquire : Fallible.runOn (Recorder.acquire thread kind false Header.length)
        (Writer.entered false run.recorder) = (.error fault, r))
      (hf : fault.isExhausted = true) :
      Starves run (.start thread kind) run.writers.length []
  | renewing {place : Nat} {w : Writer} {b : Buffer} {segment : Bytes} {fault : Fault}
      {r : Recorder} (hw : run.writers[place]? = some w) (hb : w.buffer = some b)
      (hempty : w.segments = 0) (hroom : b.free < segment.length)
      (hrenew : Fallible.runOn (Recorder.renew b w.thread segment.length w.kind) run.recorder =
        (.error fault, r))
      (hf : fault.isExhausted = true) :
      Starves run (.append place segment) place []
  | cutting {place : Nat} {w : Writer} {b : Buffer} {segment : Bytes} {fault : Fault}
      {r : Recorder} (hw : run.writers[place]? = some w) (hb : w.buffer = some b)
      (hcut : w.Cuts b segment)
      (hflush : Fallible.runOn (Recorder.flush (w.sealEntry b run.recorder.clock true)
        (w.entrySize b) (Header.length + segment.length) w.thread) run.recorder = (.error fault, r))
      (hf : fault.isExhausted = true) :
      Starves run (.append place segment) place [w.entryBytes b run.recorder.clock true]

/-- **A checkpoint is dropped in a move.**  The writer lets go and is gone, and that is counted.
All that it leaves behind are flushpoints. -/
structure Forfeits (options : RecorderOptions) (run : Run) (m : Move) (place : Nat)
    (pieces : List Bytes) : Prop extends run.LetsGo options m place pieces where
  gone : ∃ w, (run.step m).writers[place]? = some w ∧ w.Gone
  dropped : (run.step m).recorder.stats.checkpointsDropped =
    run.recorder.stats.checkpointsDropped + 1
  flushpoints : ∀ x ∈ pieces, ∃ header, Header.decode x = .ok header ∧
    header.size.toNat = x.length ∧ header.flushpoint = true

theorem Sound.holds (h : run.Sound options) (hw : run.writers[place]? = some w) {b : Buffer}
    (hb : w.buffer = some b) :
    ∃ segments, w.Holds b segments run.recorder.epoch.current ∧
      run.recorder.Sound (b :: run.others place) run.recorder.epoch.current := by
  obtain ⟨hs, hv, -⟩ := h.seen hw
  rw [hb] at hs
  rcases hv with hgone | ⟨b', segments, hb'⟩
  · rw [hgone.buffer] at hb
    cases hb
  · obtain rfl : b' = b := Option.some.inj (hb'.buffer.symm.trans hb)
    exact ⟨segments, hb', hs⟩

/-- **A writer that finds no buffer for a segment** is gone, whether it needed a larger buffer or a
fresh one.  The segment is lost, and so is what was pending; an entry that was cut off before stays
published. -/
theorem Reachable.forfeits_append (h : Reachable options run) (hw : run.writers[place]? = some w)
    {b : Buffer} (hb : w.buffer = some b) {segment : Bytes} {fault : Fault} {r : Recorder}
    (hf : fault.isExhausted = true)
    (hlease : (w.segments = 0 ∧ b.free < segment.length ∧
        Fallible.runOn (Recorder.renew b w.thread segment.length w.kind) run.recorder =
          (.error fault, r)) ∨
      (w.Cuts b segment ∧ Fallible.runOn (Recorder.flush (w.sealEntry b run.recorder.clock true)
        (w.entrySize b) (Header.length + segment.length) w.thread) run.recorder =
          (.error fault, r))) :
    run.Forfeits options (.append place segment) place
      (w.cutOff? segment run.recorder.clock).toList := by
  obtain ⟨segments, hholds, hs⟩ := h.sound.holds hw hb
  obtain ⟨hlt, -⟩ := List.getElem?_eq_some_iff.1 hw
  rcases hrun : Fallible.runOn (w.append segment) run.recorder with ⟨answer, r'⟩
  obtain ⟨w', rfl, hgone, hcounts⟩ := (hholds.append_starved hs hf hlease).run_eq hrun
  have hact : run.act (.append place segment) =
      (none, { run with recorder := r', writers := run.writers.set place w' }) := by
    show run.append place segment = _
    rw [Run.append, hw]
    dsimp only
    rw [hrun]
    rfl
  have hstep : run.step (.append place segment) =
      { run with recorder := r', writers := run.writers.set place w' } := congrArg Prod.snd hact
  have hheld : (run.step (.append place segment)).held = run.others place := by
    rw [hstep]
    exact filterMap_set_of_none hgone.buffer hlt
  have hgo : run.LetsGo options (.append place segment) place
      (w.cutOff? segment run.recorder.clock).toList :=
    h.letsGo (congrArg Prod.fst hact) rfl hheld (by simp [Move.ledger, hw])
  refine ⟨hgo, ⟨w', ?_, hgone⟩, ?_, ?_⟩
  · rw [hstep]
    simp [hlt]
  · rw [hstep]
    exact hcounts.dropped
  · intro x hx
    rw [hholds.cutOff?_eq, Option.mem_toList] at hx
    split at hx
    · cases hx
      exact Entry.header_piece (hholds.size_lt hs.fits)
    · cases hx

/-- **A checkpoint that finds no buffer is dropped**, and nothing else happens to any entry.  This
may happen when a writer begins, when it needs a larger buffer, and when it needs a fresh one; the
drop is counted at once, and once. -/
theorem Reachable.forfeits (h : Reachable options run) (ha : run.recorder.aborted = false)
    (hm : run.Starves m place pieces) : run.Forfeits options m place pieces := by
  cases hm with
  | @beginning thread kind fault r hacquire hf =>
    rcases hrun : Fallible.runOn (Writer.start thread kind false) run.recorder with ⟨answer, r'⟩
    obtain ⟨w, rfl, hgone, hcounts⟩ := (Writer.ends_start_starved h.sound.recorder ha thread kind
      false rfl hf hacquire).run_eq hrun
    have hact : run.act (.start thread kind) =
        (none, { run with recorder := r', writers := run.writers ++ [w] }) := by
      show run.start thread kind = _
      rw [Run.start, hrun]
    have hstep : run.step (.start thread kind) =
        { run with recorder := r', writers := run.writers ++ [w] } := congrArg Prod.snd hact
    have hheld : (run.step (.start thread kind)).held = run.others run.writers.length := by
      rw [others_of_none (List.getElem?_eq_none_iff.2 (Nat.le_refl _)), hstep]
      show (run.writers ++ [w]).filterMap Writer.buffer = _
      rw [List.filterMap_append, List.filterMap_cons_none hgone.buffer]
      exact List.append_nil _
    refine ⟨h.letsGo (congrArg Prod.fst hact) rfl hheld rfl, ⟨w, ?_, hgone⟩, ?_, ?_⟩
    · rw [hstep]
      exact List.getElem?_concat_length
    · rw [hstep]
      exact hcounts.dropped
    · intro x hx
      cases hx
  | @renewing place w b segment fault r hw hb hempty hroom hrenew hf =>
    obtain ⟨segments, hholds, -⟩ := h.sound.holds hw hb
    have hforfeits := h.forfeits_append hw hb hf (.inl ⟨hempty, hroom, hrenew⟩)
    rw [hholds.cutOff?_eq, if_neg fun hcut => hcut.1 hempty] at hforfeits
    exact hforfeits
  | @cutting place w b segment fault r hw hb hcut hflush hf =>
    obtain ⟨segments, hholds, -⟩ := h.sound.holds hw hb
    have hforfeits := h.forfeits_append hw hb hf (.inr ⟨hcut, hflush⟩)
    rw [hholds.cutOff?_eq, if_pos hcut, ← hholds.entryBytes_eq] at hforfeits
    exact hforfeits

/-! ## 3. Writers that are gone -/

/-- The run without one of its writers, which has left its epoch. -/
def without (run : Run) (place : Nat) : Run :=
  { run with
    recorder := run.recorder.moveEpoch (·.leave run.recorder.epoch.current)
    writers := run.writers.eraseIdx place }

/-- **A writer that is gone changes nothing.**  Segments leave the run as it is; and after its end,
which commits nothing, one writer less is active. -/
structure Inert (run : Run) (place : Nat) : Prop where
  gone : ∃ w, run.writers[place]? = some w ∧ w.Gone ∧
    (Fallible.runOn w.finish run.recorder).1 = .ok 0
  append : ∀ segment, run.act (.append place segment) = (none, run)
  finish : run.act (.finish place) = (none, run.without place)
  abandon : run.act (.abandon place) = (none, run.without place)

/-- **Any moves happen, but the writer at a place is not closed**; its place may change. -/
inductive Later (run : Run) (place : Nat) : Run → Nat → Prop where
  | now : Later run place run place
  | step {next : Run} {place' : Nat} (c : Later run place next place') (m : Move)
      (hm : m.admitted next) (hfinish : m ≠ .finish place') (habandon : m ≠ .abandon place') :
      Later run place (next.step m) (m.placeAfter place')

theorem Later.reachable {place' : Nat} (h : Reachable options run)
    (c : Later run place next place') : Reachable options next := by
  induction c with
  | now => exact h
  | step c m hm hfinish habandon ih => exact ih.step m hm

/-- A writer that is gone answers everything without a change. -/
theorem Sound.inert (h : run.Sound options) (hw : run.writers[place]? = some w) (hgone : w.Gone) :
    run.Inert place := by
  have hp := (h.writers w (List.mem_of_getElem? hw)).2
  have hleft : w.left run.recorder =
      run.recorder.moveEpoch (·.leave run.recorder.epoch.current) := by
    rw [Writer.left, hp]
  refine ⟨⟨w, hw, hgone, by rw [hgone.runOn_finish]⟩, ?_, ?_, ?_⟩
  · intro segment
    obtain ⟨hlt, rfl⟩ := List.getElem?_eq_some_iff.1 hw
    show run.append place segment = (none, run)
    rw [Run.append, hw]
    dsimp only
    rw [hgone.runOn_append]
    dsimp only
    rw [List.set_getElem_self]
    rfl
  · show run.close place Writer.finish = (none, run.without place)
    rw [Run.close, hw]
    dsimp only
    rw [Run.perform, hgone.runOn_finish, hleft]
    rfl
  · show run.close place Writer.abandon = (none, run.without place)
    rw [Run.close, hw]
    dsimp only
    rw [Run.perform, hgone.runOn_abandon, hleft]
    rfl

/-- **A writer that is gone stays gone**, whatever moves come: it keeps its place among the open
writers until it ends, and has no buffer from which anything could come. -/
theorem Later.gone {place' : Nat} (h : Reachable options run) (hw : run.writers[place]? = some w)
    (hgone : w.Gone) (c : Later run place next place') : next.writers[place']? = some w := by
  induction c with
  | now => exact hw
  | @step next place' c m hm hfinish habandon ih =>
    by_cases hwriter : m.writer? = some place'
    · cases m with
      | append writer segment =>
        cases hwriter
        have hinert := ((c.reachable h).sound.inert ih hgone).append segment
        rw [Run.step, hinert]
        exact ih
      | finish writer =>
        cases hwriter
        exact absurd rfl hfinish
      | abandon writer =>
        cases hwriter
        exact absurd rfl habandon
      | _ => cases hwriter
    · exact writer_other ih m hwriter

/-! ## 4. Writers that end early -/

/-- **A writer ends and leaves nothing more behind.**  It is counted neither as written nor as
dropped. -/
structure Vanishes (options : RecorderOptions) (run : Run) (m : Move) (place : Nat) : Prop
    extends run.LetsGo options m place [] where
  writers : (run.step m).writers = run.writers.eraseIdx place
  dropped : (run.step m).recorder.stats.checkpointsDropped = run.recorder.stats.checkpointsDropped

/-- **A writer is abandoned.** -/
theorem Reachable.vanishes_abandon (h : Reachable options run)
    (hw : run.writers[place]? = some w) : run.Vanishes options (.abandon place) place := by
  obtain ⟨hs, hv, -⟩ := h.sound.seen hw
  obtain ⟨r₁, hanswer, -, -⟩ := hv.abandon hs
  have hfault : run.fault? (.abandon place) = none := by
    simp [fault?, act, Run.close, Run.perform, hw, hanswer, faultOf]
  have hstep : run.step (.abandon place) = _ := close_eq (x := Writer.abandon) hw
  refine ⟨h.letsGo hfault rfl ?_ rfl, ?_, ?_⟩
  · rw [hstep]
    rfl
  · rw [hstep]
  · rw [hstep]
    exact congrArg Prod.fst (w.keeps_score_abandon run.recorder)

/-- **A writer ends without segments.** -/
theorem Reachable.vanishes_finish (h : Reachable options run)
    (hw : run.writers[place]? = some w) (hempty : w.segments = 0) :
    run.Vanishes options (.finish place) place := by
  obtain ⟨hs, hv, -⟩ := h.sound.seen hw
  obtain ⟨n, r₁, hanswer, -⟩ := hv.finish hs
  have hfault : run.fault? (.finish place) = none := by
    simp [fault?, act, Run.close, Run.perform, hw, hanswer, faultOf]
  have hnone : w.lastPiece? run.recorder.clock = none := by
    unfold Writer.lastPiece?
    split
    · exact if_pos hempty
    · rfl
  have hstep : run.step (.finish place) = _ := close_eq (x := Writer.finish) hw
  refine ⟨h.letsGo hfault rfl ?_ ?_, ?_, ?_⟩
  · rw [hstep]
    rfl
  · simp [Move.ledger, hw, hnone]
  · rw [hstep]
  · rw [hstep]
    exact congrArg Prod.fst (w.keeps_score_finish run.recorder)

/-! ## 5. What is counted -/

/-- How many checkpoints are counted as written in a move. -/
def countsWritten (run : Run) (m : Move) : Int :=
  (run.step m).recorder.stats.checkpointsWritten - run.recorder.stats.checkpointsWritten

/-- How many checkpoints are counted as dropped in a move. -/
def countsDropped (run : Run) (m : Move) : Int :=
  (run.step m).recorder.stats.checkpointsDropped - run.recorder.stats.checkpointsDropped

/-- **The life of one writer that begins in a run**: its place among the open writers, the segments
that it was given, and how many checkpoints were counted as written and as dropped in its own moves.
In between other moves are made. -/
inductive Tenure (run : Run) : Run → (place : Nat) → (given : List Bytes) →
    (written dropped : Int) → Prop where
  | start (thread : ThreadId) (kind : BufferKind) (hm : (Move.start thread kind).admitted run) :
      Tenure run (run.step (.start thread kind)) run.writers.length []
        (run.countsWritten (.start thread kind)) (run.countsDropped (.start thread kind))
  | segment {next : Run} {place : Nat} {given : List Bytes} {written dropped : Int}
      (c : Tenure run next place given written dropped) (segment : Bytes)
      (hs : segment.length ≤ Memory.addressable) (hm : (Move.append place segment).admitted next) :
      Tenure run (next.step (.append place segment)) place (given ++ [segment])
        (written + next.countsWritten (.append place segment))
        (dropped + next.countsDropped (.append place segment))
  | other {next : Run} {place : Nat} {given : List Bytes} {written dropped : Int}
      (c : Tenure run next place given written dropped) (m : Move) (hm : m.admitted next)
      (hne : m.writer? ≠ some place) :
      Tenure run (next.step m) (m.placeAfter place) given written dropped

theorem counts_eq {r : Recorder} {n d : Nat} (hstep : (run.step m).recorder = r)
    (h : run.recorder.Counts r n d) : run.countsWritten m = n ∧ run.countsDropped m = d := by
  have hn := h.written
  have hd := h.dropped
  rw [countsWritten, countsDropped, hstep]
  omega

/-- **What is known of a writer at any time**: it is not counted yet, and has segments if it was
given some, though no more than these; or it is gone and was counted as dropped. -/
structure Standing (options : RecorderOptions) (run : Run) (place : Nat) (given : List Bytes)
    (written dropped : Int) : Prop where
  reachable : Reachable options run
  writer : ∃ w, run.writers[place]? = some w ∧
    ((w.Gone ∧ written = 0 ∧ dropped = 1) ∨
      ((∃ b segments, w.Holds b segments run.recorder.epoch.current ∧
        (given ≠ [] → segments ≠ []) ∧ segments.length ≤ given.length) ∧
        written = 0 ∧ dropped = 0))

section

variable {given : List Bytes} {written dropped : Int}

/-- A writer begins. -/
theorem Reachable.standing (h : Reachable options run) (ha : run.recorder.aborted = false)
    (thread : ThreadId) (kind : BufferKind) (hm : (Move.start thread kind).admitted run) :
    Standing options (run.step (.start thread kind)) run.writers.length []
      (run.countsWritten (.start thread kind)) (run.countsDropped (.start thread kind)) := by
  obtain ⟨w, r, hrun, hstart⟩ := h.sound.runOn_start hm
  have htallied := (Writer.ends_start_tallied h.sound.recorder ha thread kind false rfl).run_eq hrun
  obtain ⟨w', ⟨⟩, -, hw⟩ := htallied.resolve_left (not_refused_ok _)
  have hstep : run.step (.start thread kind) =
      { run with recorder := r, writers := run.writers ++ [w] } := congrArg Prod.snd hstart
  have hat : (run.step (.start thread kind)).writers[run.writers.length]? = some w := by
    rw [hstep]
    exact List.getElem?_concat_length
  refine ⟨h.step _ hm, w, hat, ?_⟩
  have hrecorder := congrArg Run.recorder hstep
  rcases hw with ⟨⟨b, hb⟩, hcounts⟩ | ⟨hgone, hcounts⟩
  · refine .inr ⟨⟨b, [], ?_, fun hne => absurd rfl hne, Nat.zero_le _⟩,
      counts_eq hrecorder hcounts⟩
    have hpin := ((h.step _ hm).sound.writers w (List.mem_of_getElem? hat)).2
    obtain ⟨w', hw', -, hpin', -⟩ := h.sound.writer_start thread kind hm
    rw [hat] at hw'
    cases hw'
    rw [hpin] at hpin'
    rwa [Option.some.inj hpin']
  · exact .inl ⟨hgone, counts_eq hrecorder hcounts⟩

/-- The writer takes a segment. -/
theorem Standing.segment (h : Standing options run place given written dropped) (segment : Bytes)
    (hs : segment.length ≤ Memory.addressable) (hm : (Move.append place segment).admitted run) :
    Standing options (run.step (.append place segment)) place (given ++ [segment])
      (written + run.countsWritten (.append place segment))
      (dropped + run.countsDropped (.append place segment)) := by
  have hr := h.reachable.step _ hm
  obtain ⟨w, hw, hstate⟩ := h.writer
  rcases hstate with ⟨hgone, hn, hd⟩ | ⟨⟨b, segments, hb, -, hle⟩, hn, hd⟩
  · have hinert := (h.reachable.sound.inert hw hgone).append segment
    have hstep : run.step (.append place segment) = run := congrArg Prod.snd hinert
    obtain ⟨hn', hd'⟩ := counts_eq (congrArg Run.recorder hstep)
      (⟨rfl, rfl⟩ : run.recorder.Counts run.recorder 0 0)
    refine ⟨hr, w, ?_, .inl ⟨hgone, ?_, ?_⟩⟩
    · rw [hstep]
      exact hw
    · rw [hn, hn']
      rfl
    · rw [hd, hd']
      rfl
  · obtain ⟨outcome, w', r', hrun, hnot, happend⟩ := h.reachable.sound.runOn_append hw hm
    obtain ⟨hsound, -, hpin⟩ := h.reachable.sound.seen hw
    rw [hb.buffer] at hsound
    obtain ⟨_, _, ⟨⟩, hpost⟩ := (hb.append_tallied hsound hs).run_eq hrun
    obtain ⟨-, -, htallied⟩ := hpost.resolve_left hnot
    have hstep : run.step (.append place segment) =
        { run with recorder := r', writers := run.writers.set place w' } :=
      congrArg Prod.snd happend
    obtain ⟨hlt, -⟩ := List.getElem?_eq_some_iff.1 hw
    have hw' : (run.step (.append place segment)).writers[place]? = some w' := by
      rw [hstep]
      simp [hlt]
    have hcurrent : (run.step (.append place segment)).recorder.epoch.current =
        run.recorder.epoch.current := by
      obtain ⟨w'', hw'', hid, -⟩ := h.reachable.sound.writer_append hw segment hm
      exact h.reachable.sound.current_eq hr.sound (List.mem_of_getElem? hw)
        (List.mem_of_getElem? hw'') (Writer.identity_eq_iff.1 hid).2.2.2
    refine ⟨hr, w', hw', ?_⟩
    have hrecorder := congrArg Run.recorder hstep
    rw [hn, hd, hcurrent]
    rcases htallied with ⟨⟨b', segments', hb', hne, hle'⟩, hcounts⟩ | ⟨hgone, hcounts⟩
    · obtain ⟨hn', hd'⟩ := counts_eq hrecorder hcounts
      have hmost : segments'.length ≤ (given ++ [segment]).length := by
        rw [List.length_append]
        exact Nat.le_trans hle' (Nat.succ_le_succ hle)
      exact .inr ⟨⟨b', segments', hb', fun _ => hne, hmost⟩, by omega, by omega⟩
    · obtain ⟨hn', hd'⟩ := counts_eq hrecorder hcounts
      exact .inl ⟨hgone, by omega, by omega⟩

/-- **What others do is of no account to a writer**: it keeps its buffer and its run, perhaps at
another place, and is not counted for it. -/
theorem Standing.other (h : Standing options run place given written dropped) (m : Move)
    (hm : m.admitted run) (hne : m.writer? ≠ some place) :
    Standing options (run.step m) (m.placeAfter place) given written dropped := by
  have hr := h.reachable.step m hm
  obtain ⟨w, hw, hstate⟩ := h.writer
  have hw' := writer_other hw m hne
  refine ⟨hr, w, hw', ?_⟩
  rw [h.reachable.sound.current_eq hr.sound (List.mem_of_getElem? hw)
    (List.mem_of_getElem? hw') rfl]
  exact hstate

theorem Tenure.standing (h : Reachable options run) (ha : run.recorder.aborted = false)
    (c : Tenure run next place given written dropped) :
    Standing options next place given written dropped := by
  induction c with
  | start thread kind hm => exact h.standing ha thread kind hm
  | segment c segment hs hm ih => exact ih.segment segment hs hm
  | other c m hm hne ih => exact ih.other m hm hne

/-- **A checkpoint that was given a segment is counted once** by its end. -/
theorem Standing.counted (h : Standing options run place given written dropped)
    (hne : given ≠ []) (hcount : given.length < UInt32.size) :
    (written + run.countsWritten (.finish place) = 1 ∧
      dropped + run.countsDropped (.finish place) = 0) ∨
    (written + run.countsWritten (.finish place) = 0 ∧
      dropped + run.countsDropped (.finish place) = 1) := by
  obtain ⟨w, hw, hstate⟩ := h.writer
  have hrecorder : (run.step (.finish place)).recorder =
      (Fallible.runOn w.finish run.recorder).2 := congrArg Run.recorder (close_eq hw)
  rcases hstate with ⟨hgone, hn, hd⟩ | ⟨⟨b, segments, hb, hsegments, hle⟩, hn, hd⟩
  · obtain ⟨hn', hd'⟩ := counts_eq hrecorder (hgone.finish_counts run.recorder).2
    right
    omega
  · obtain ⟨hsound, -, -⟩ := h.reachable.sound.seen hw
    rw [hb.buffer] at hsound
    have hstarted := (hb.segments_eq_zero_iff (Nat.lt_of_le_of_lt hle hcount)).not.2 (hsegments hne)
    obtain ⟨hn', hd'⟩ := counts_eq hrecorder (hb.finish_counts hstarted hsound).2
    left
    omega

end

/-- The recorder that writes a checkpoint on its own behalf, in a drain or outside of one. -/
def reciting (run : Run) (duringDrain : Bool) : Recorder :=
  if duringDrain then run.recorder.moveEpoch EpochController.raise else run.recorder

/-- **What the recorder writes itself is counted once**, too. -/
theorem Sound.recited_counts (h : run.Sound options) (ha : run.recorder.aborted = false)
    (thread : ThreadId) (kind : BufferKind) (duringDrain : Bool) {relations : List Relation}
    (hs : ∀ relation ∈ relations, relation.encode.length ≤ Memory.addressable)
    (hfew : options.Modest kind ∨ relations.length < UInt32.size)
    (hne : ∃ relation ∈ relations, relation.isEmpty = false) :
    Ends (Recorder.writeRelations thread kind duringDrain relations) (run.reciting duringDrain)
      fun answer r' => Refused answer ∨ ((∃ n, answer = .ok n) ∧
        ((run.reciting duringDrain).Counts r' 1 0 ∨ (run.reciting duringDrain).Counts r' 0 1)) := by
  rw [← h.options] at hfew
  cases duringDrain with
  | false => exact h.recorder.writeRelations_counts ha thread kind false rfl hs hfew hne
  | true =>
    have hs' := h.recorder.moveEpoch EpochController.raise
    exact hs'.writeRelations_counts ha thread kind true rfl hs hfew hne

/-- **Dropping and abandoning checkpoints is clean.**

* A writer that finds no buffer is gone, which is counted as one dropped checkpoint.  It has let go
  of its slot; what was committed is pooled, with the piece that was flushed just before, if one
  was.  Whatever happens later, nothing that it is asked to do changes anything.
* A writer that is abandoned, or ends without segments, leaves what was flushed and is not counted.
* A writer that was given segments, and fewer than a header can count, is counted once by its end:
  either as written or as dropped.  So is each checkpoint that the recorder itself writes, of as
  many relations as a header can count, or in entries that are no larger than a 32-bit word says. -/
theorem Reachable.dropping (h : Reachable options run) (ha : run.recorder.aborted = false) :
    (∀ m place pieces, run.Starves m place pieces → run.Forfeits options m place pieces ∧
      ∀ next place', Later (run.step m) place next place' → next.Inert place') ∧
    (∀ place w, run.writers[place]? = some w → run.Vanishes options (.abandon place) place ∧
      (w.segments = 0 → run.Vanishes options (.finish place) place)) ∧
    (∀ next place given written dropped, Tenure run next place given written dropped →
      given ≠ [] → given.length < UInt32.size →
      (written + next.countsWritten (.finish place) = 1 ∧
        dropped + next.countsDropped (.finish place) = 0) ∨
      (written + next.countsWritten (.finish place) = 0 ∧
        dropped + next.countsDropped (.finish place) = 1)) ∧
    (∀ thread kind duringDrain relations answer r',
      (∀ relation ∈ relations, relation.encode.length ≤ Memory.addressable) →
      options.Modest kind ∨ relations.length < UInt32.size →
      (∃ relation ∈ relations, relation.isEmpty = false) →
      Fallible.runOn (Recorder.writeRelations thread kind duringDrain relations)
        (run.reciting duringDrain) = (answer, r') →
      Refused answer ∨ (run.reciting duringDrain).Counts r' 1 0 ∨
        (run.reciting duringDrain).Counts r' 0 1) := by
  refine ⟨?_, ?_, ?_, ?_⟩
  · intro m place pieces hm
    have hforfeits := h.forfeits ha hm
    have hadmitted : m.admitted run := by
      refine ⟨fun hd => (by cases hm <;> cases hd), ?_⟩
      rw [Move.granted, hforfeits.fault]
      rfl
    refine ⟨hforfeits, fun next place' c => ?_⟩
    obtain ⟨w, hw, hgone⟩ := hforfeits.gone
    have hr := h.step m hadmitted
    exact (c.reachable hr).sound.inert (c.gone hr hw hgone) hgone
  · exact fun place w hw => ⟨h.vanishes_abandon hw, h.vanishes_finish hw⟩
  · intro next place given written dropped c hne hcount
    exact (c.standing h ha).counted hne hcount
  · intro thread kind duringDrain relations answer r' hs hfew hne hrun
    have hcounts := (h.sound.recited_counts ha thread kind duringDrain hs hfew hne).run_eq hrun
    exact hcounts.imp id fun hok => hok.2

/-- A second segment finds no room behind the first one, and both buffers of the pool are in use:
what was there is flushed, and the checkpoint is dropped. -/
theorem Reachable.dropping_behind_cut :
    let run := small.walk [.start 7 .threadLocal, .append 0 (List.replicate 20 1),
      .start 9 .threadLocal]
    let m := Move.append 0 (List.replicate 40 2)
    (∃ piece, run.Forfeits smallOptions m 0 [piece]) ∧ (run.step m).Inert 0 ∧
      run.Vanishes smallOptions (.abandon 1) 1 ∧ run.Vanishes smallOptions (.finish 1) 1 ∧
      ∃ written dropped, Tenure small (run.step m) 0 [List.replicate 20 1, List.replicate 40 2]
        written dropped ∧ written + (run.step m).countsWritten (.finish 0) = 0 ∧
        dropped + (run.step m).countsDropped (.finish 0) = 1 := by
  intro run m
  have h : Reachable smallOptions run := (Reachable.create create_small).walk _ (by decide +kernel)
  obtain ⟨hforfeits, hvanishes, -, -⟩ := h.dropping (by decide +kernel)
  have hstarves : (run.writers[0]?.any fun w => w.buffer.any fun b =>
      decide (w.Cuts b (List.replicate 40 2)) &&
        match Fallible.runOn (Recorder.flush (w.sealEntry b run.recorder.clock true)
          (w.entrySize b) (Header.length + 40) w.thread) run.recorder with
        | (.error fault, _) => fault.isExhausted
        | (.ok _, _) => false) = true := by decide +kernel
  obtain ⟨w, hw, hstarves⟩ := (Option.any_eq_true _ _).1 hstarves
  obtain ⟨b, hb, hstarves⟩ := (Option.any_eq_true _ _).1 hstarves
  rw [Bool.and_eq_true, decide_eq_true_eq] at hstarves
  obtain ⟨hcut, hstarves⟩ := hstarves
  split at hstarves
  case' h_2 => cases hstarves
  rename_i fault r hflush
  obtain ⟨hforfeits, hinert⟩ := hforfeits m 0 _ (.cutting hw hb hcut hflush hstarves)
  have hother : run.writers[1]?.any (fun w => w.segments == 0) = true := by decide +kernel
  obtain ⟨w', hw', hempty⟩ := (Option.any_eq_true _ _).1 hother
  have hbegun : Tenure small (small.step (.start 7 .threadLocal)) 0 [] _ _ :=
    .start 7 .threadLocal (by decide +kernel)
  have c := ((hbegun.segment (List.replicate 20 1) (by decide) (by decide +kernel)).other
    (.start 9 .threadLocal) (by decide +kernel) (by decide)).segment (List.replicate 40 2)
    (by decide) (by decide +kernel)
  obtain ⟨-, -, hcounted, -⟩ := (Reachable.create create_small).dropping rfl
  have hcounted := hcounted _ _ _ _ _ c (by decide) (by decide)
  refine ⟨⟨_, hforfeits⟩, hinert _ _ .now, (hvanishes 1 w' hw').1,
    (hvanishes 1 w' hw').2 (beq_iff_eq.1 hempty), _, _, c, ?_⟩
  refine hcounted.resolve_left fun hwritten => absurd hwritten.2 ?_
  decide +kernel

end Run

end TraceRecorder
