/-
# How a checkpoint is framed

A checkpoint is cut into runs of segments: a run is closed when a segment comes for which there is
no room behind it, and that segment begins the next one (`Cutting.take`).  Each run is framed as
one entry, and all of them but the last are flushpoints.

A `Session` is the life of one writer in a run: it begins in any reachable run, is given segments,
and in between anything else may happen, so that its place among the open writers may change.
`Session.framed` says which entries such a writer has committed when it ends.
-/
import Mathlib.Algebra.BigOperators.Group.List.Basic
import Mathlib.Data.List.Count
import Mathlib.Data.List.Forall2
import Mathlib.Data.List.Induction
import TraceRecorder.Proofs.Run.Steps

namespace TraceRecorder

open Fallible (Ends)

/-! ## 1. Runs of segments -/

/-- The runs into which some segments are cut: those that are closed, and the current one. -/
structure Cutting where
  closed : List (List Bytes) := []
  current : List Bytes := []

namespace Cutting

/-- **A segment closes the current run if that has segments and the room behind them does not
suffice**, and begins the next one; otherwise it joins the run. -/
def take (c : Cutting) (given : Bytes × Nat) : Cutting :=
  if c.current ≠ [] ∧ given.2 < given.1.length then
    { closed := c.closed ++ [c.current], current := [given.1] }
  else { c with current := c.current ++ [given.1] }

/-- The runs of some segments, each given with the room that there is for it. -/
def of (given : List (Bytes × Nat)) : Cutting := given.foldl take {}

def runs (c : Cutting) : List (List Bytes) := c.closed ++ [c.current]

theorem of_append (given : List (Bytes × Nat)) (g : Bytes × Nat) :
    of (given ++ [g]) = (of given).take g := by
  rw [of, List.foldl_append]
  rfl

/-- **The runs are the segments**, one run behind the other. -/
theorem flatten_runs (given : List (Bytes × Nat)) :
    (of given).runs.flatten = given.map Prod.fst := by
  induction given using List.reverseRecOn with
  | nil => rfl
  | append_singleton given g ih =>
    rw [of_append, List.map_append, ← ih, take]
    split <;> simp [runs]

-- The first segment joins the empty run whatever the room is; the third one finds too little.
example : (of [([1, 2], 0), ([3], 4), ([4, 5], 1)]).runs = [[[1, 2], [3]], [[4, 5]]] := by decide

/-- No run that is closed is empty, nor is the current one once there is a segment. -/
theorem ne_nil_of_mem_runs {given : List (Bytes × Nat)} (h : given ≠ []) :
    ∀ run ∈ (of given).runs, run ≠ [] := by
  have hall : (∀ run ∈ (of given).closed, run ≠ []) ∧ (given ≠ [] → (of given).current ≠ []) := by
    clear h
    induction given using List.reverseRecOn with
    | nil => exact ⟨fun run hr => absurd hr List.not_mem_nil, fun hn => absurd rfl hn⟩
    | append_singleton given g ih =>
      rw [of_append, take]
      split
      · rename_i hc
        refine ⟨?_, fun _ => List.cons_ne_nil _ _⟩
        intro run hr
        rcases List.mem_append.1 hr with hr | hr
        · exact ih.1 run hr
        · rw [List.mem_singleton.1 hr]
          exact hc.1
      · exact ⟨ih.1, fun _ => by simp⟩
  intro run hr
  rcases List.mem_append.1 hr with hr | hr
  · exact hall.1 run hr
  · rw [List.mem_singleton.1 hr]
    exact hall.2 h

theorem length_le_of_mem_runs {given : List (Bytes × Nat)} {run : List Bytes}
    (h : run ∈ (of given).runs) : run.length ≤ given.length := by
  have hs := (List.sublist_flatten_of_mem h).length_le
  rwa [flatten_runs, List.length_map] at hs

theorem length_runs_le {given : List (Bytes × Nat)} (h : given ≠ []) :
    (of given).runs.length ≤ given.length := by
  have hsegments : (of given).runs.flatten.length = given.length := by
    rw [flatten_runs, List.length_map]
  rw [List.length_flatten] at hsegments
  rw [← hsegments, ← List.length_map List.length]
  refine List.length_le_sum_of_one_le _ fun n hn => ?_
  obtain ⟨run, hrun, rfl⟩ := List.mem_map.1 hn
  exact List.length_pos_of_ne_nil (ne_nil_of_mem_runs h run hrun)

end Cutting

/-! ## 2. Sessions -/

namespace Move

/-- The open writer that a move uses, by its place. -/
def writer? : Move → Option Nat
  | append writer _ | finish writer | abandon writer => some writer
  | _ => none

/-- The place of another open writer after the move. -/
def placeAfter (m : Move) (place : Nat) : Nat :=
  match m with
  | finish writer | abandon writer => if writer < place then place - 1 else place
  | _ => place

end Move

namespace Run

/-- The room for another segment in the buffer of an open writer. -/
def room (run : Run) (place : Nat) : Nat :=
  ((run.writers[place]?.bind Writer.buffer).map Buffer.free).getD 0

/-- The entries that are in the buffers after a move and were not before. -/
def added (run : Run) (m : Move) : List Bytes := (run.step m).entries.diff run.entries

/-- How many flushes are counted in a move. -/
def flushed (run : Run) (m : Move) : Nat :=
  (run.step m).recorder.stats.flushes - run.recorder.stats.flushes

/-- **The life of one writer in a run**: its place among the open writers, the segments that it was
given, each with the room that there was for it, the entries that it has added to the buffers, and
how many flushes the recorder has counted for it.  In between other moves are made. -/
inductive Session (options : RecorderOptions) (startTime : UInt64) :
    Run → (place : Nat) → (given : List (Bytes × Nat)) → (cut : List Bytes) → (flushes : Nat) →
    Prop where
  | start {run : Run} (h : Reachable options run) (ht : run.recorder.clock = startTime)
      (thread : ThreadId) (kind : BufferKind) (hm : (Move.start thread kind).admitted run) :
      Session options startTime (run.step (.start thread kind)) run.writers.length [] []
        (run.flushed (.start thread kind))
  | segment {run : Run} {place : Nat} {given : List (Bytes × Nat)} {cut : List Bytes}
      {flushes : Nat} (c : Session options startTime run place given cut flushes)
      (segment : Bytes) (hm : (Move.append place segment).admitted run) :
      Session options startTime (run.step (.append place segment)) place
        (given ++ [(segment, run.room place)]) (cut ++ run.added (.append place segment))
        (flushes + run.flushed (.append place segment))
  | other {run : Run} {place : Nat} {given : List (Bytes × Nat)} {cut : List Bytes}
      {flushes : Nat} (c : Session options startTime run place given cut flushes)
      (m : Move) (hm : m.admitted run) (hne : m.writer? ≠ some place) :
      Session options startTime (run.step m) (m.placeAfter place) given cut flushes

variable {options : RecorderOptions} {run : Run} {place : Nat} {w : Writer}

/-! ## 3. What happens to one writer -/

/-- A new writer is the last of those that are open. -/
theorem Sound.writer_start (h : run.Sound options) (thread : ThreadId) (kind : BufferKind)
    (hm : (Move.start thread kind).admitted run) :
    ∃ w, (run.step (.start thread kind)).writers[run.writers.length]? = some w ∧
      w.startTime = run.recorder.clock ∧ w.pinned = some run.recorder.epoch.current ∧
      w.pieces = 1 ∧ w.written = 0 ∧ (w.Gone ∨ ∃ b, w.Holds b [] run.recorder.epoch.current) := by
  obtain ⟨-, hg⟩ := hm
  have hstart := Writer.ends_start h.recorder thread kind false rfl
  show ∃ w, (run.start thread kind).2.writers[run.writers.length]? = some w ∧ _
  have hg : (run.start thread kind).1.all (fun fault => !fault.endsThread) = true := hg
  unfold Run.start at hg ⊢
  rcases hrun : Fallible.runOn (Writer.start thread kind false) run.recorder with ⟨fault | w, r⟩
  · have hf : fault.endsThread = true := hstart.run_eq hrun
    rw [hrun] at hg
    simp [hf] at hg
  · obtain ⟨-, hw, hpieces, hwritten, hid⟩ := hstart.run_eq hrun
    obtain ⟨-, -, htime, hpin⟩ := Writer.identity_eq_iff.1 hid
    exact ⟨w, by simp, htime, hpin, hpieces, hwritten, hw⟩

/-- **The writer that takes a segment** stays at its place. -/
theorem Sound.writer_append (h : run.Sound options) (hw : run.writers[place]? = some w)
    (segment : Bytes) (hm : (Move.append place segment).admitted run) :
    ∃ w', (run.step (.append place segment)).writers[place]? = some w' ∧
      w'.identity = w.identity ∧ (w.Gone → w'.Gone) ∧
      ∀ b segments, w.Holds b segments run.recorder.epoch.current →
        w'.Gone ∨ w.Took b segments segment w' run.recorder.epoch.current := by
  obtain ⟨-, hg⟩ := hm
  have hg : (run.append place segment).1.all (fun fault => !fault.endsThread) = true := hg
  show ∃ w', (run.append place segment).2.writers[place]? = some w' ∧ _
  obtain ⟨hs, hv, -⟩ := h.seen hw
  obtain ⟨hlt, -⟩ := List.getElem?_eq_some_iff.1 hw
  unfold Run.append at hg ⊢
  rw [hw] at hg ⊢
  dsimp only at hg ⊢
  have happend := hv.append hs segment
  rcases hrun : Fallible.runOn (w.append segment) run.recorder with ⟨answer, r⟩
  obtain ⟨outcome, w', rfl, hid, hpost⟩ := happend.run_eq hrun
  rw [hrun] at hg
  dsimp only
  refine ⟨w', by simp [hlt], hid, ?_, ?_⟩
  · intro hgone
    have hsame := hgone.runOn_append (r := run.recorder) segment
    rw [hrun] at hsame
    cases hsame
    exact hgone
  · intro b segments hb
    rw [hb.buffer] at hs
    have hown := hb.append hs segment
    obtain ⟨outcome', w'', heq, -, hpost'⟩ := hown.run_eq hrun
    cases heq
    exact (hpost'.resolve_left (not_refused hg)).2

/-- A writer closes, and those behind it move up. -/
theorem writer_close {α : Type} (hw : run.writers[place]? = some w) (writer : Nat)
    (hne : writer ≠ place) (x : Writer → Action α) :
    (run.close writer x).2.writers[if writer < place then place - 1 else place]? = some w := by
  unfold close
  cases ho : run.writers[writer]? with
  | none =>
    have hlt : place < run.writers.length := (List.getElem?_eq_some_iff.1 hw).1
    rw [List.getElem?_eq_none_iff] at ho
    rw [if_neg (by omega)]
    exact hw
  | some other =>
    show (run.writers.eraseIdx writer)[_]? = some w
    rw [List.getElem?_eraseIdx]
    split
    · rename_i hlt
      rw [if_neg (by omega), Nat.sub_add_cancel (by omega)]
      exact hw
    · rename_i hlt
      rw [if_pos (by omega)]
      exact hw

/-- **Other moves leave a writer alone**, though its place may change. -/
theorem writer_other (hw : run.writers[place]? = some w) (m : Move) (hne : m.writer? ≠ some place) :
    (run.step m).writers[m.placeAfter place]? = some w := by
  obtain ⟨hlt, -⟩ := List.getElem?_eq_some_iff.1 hw
  cases m with
  | start thread kind =>
    show (run.start thread kind).2.writers[place]? = some w
    unfold Run.start
    rcases Fallible.runOn (Writer.start thread kind false) run.recorder with ⟨fault | w', r⟩
    · exact hw
    · exact (List.getElem?_append_left hlt).trans hw
  | append writer segment =>
    have hother : writer ≠ place := fun heq => hne (congrArg some heq)
    show (run.append writer segment).2.writers[place]? = some w
    unfold Run.append
    cases run.writers[writer]? with
    | none => exact hw
    | some w' =>
      dsimp only
      rcases Fallible.runOn (w'.append segment) run.recorder with ⟨fault | ⟨answer, w''⟩, r⟩
      · exact hw
      · exact (List.getElem?_set_ne hother).trans hw
  | finish writer => exact writer_close hw writer (fun heq => hne (congrArg some heq)) Writer.finish
  | abandon writer =>
    exact writer_close hw writer (fun heq => hne (congrArg some heq)) Writer.abandon
  | replaceSink sink =>
    show (run.replaceSink sink).2.writers[place]? = some w
    unfold Run.replaceSink
    rcases Fallible.runOn (Recorder.replaceSink sink) run.recorder with ⟨fault | old, r⟩ <;>
      exact hw
  | _ => exact hw

/-! ## 4. What a session has done -/

/-- **The writer holds the current run, and has cut off a frame for each run before.** -/
structure Progress (w : Writer) (e : Epoch) (given : List (Bytes × Nat)) (cut : List Bytes) :
    Prop where
  holds : ∃ b, w.Holds b (Cutting.of given).current e
  frames : List.Forall₂ (fun entry segments => Entry.Frames entry segments w.startTime true) cut
    (Cutting.of given).closed
  pieces : w.pieces = UInt32.ofNat (cut.length + 1)
  written : w.written = cut.flatten.length

theorem length_current_le (given : List (Bytes × Nat)) :
    (Cutting.of given).current.length ≤ given.length :=
  Cutting.length_le_of_mem_runs (List.mem_append_right _ List.mem_cons_self)

/-- **One segment more.** -/
theorem Progress.append {given : List (Bytes × Nat)} {cut : List Bytes} {w' : Writer} {b : Buffer}
    {segment : Bytes} {e : Epoch} {r : Recorder} {out : List Buffer} (h : Progress w e given cut)
    (hb : w.Holds b (Cutting.of given).current e) (hs : r.Sound (b :: out) e)
    (htook : w.Took b (Cutting.of given).current segment w' e) (htime : w'.startTime = w.startTime)
    (hn : given.length < UInt32.size) (now : UInt64) :
    Progress w' e (given ++ [(segment, b.free)]) (cut ++ (w.cutOff? segment now).toList) := by
  have hcount := Nat.lt_of_le_of_lt (length_current_le given) hn
  have hcuts : w.Cuts b segment ↔ (Cutting.of given).current ≠ [] ∧ b.free < segment.length :=
    and_congr (hb.segments_eq_zero_iff hcount).not Iff.rfl
  have hof := Cutting.of_append given (segment, b.free)
  rw [Cutting.take] at hof
  rw [hb.cutOff?_eq]
  by_cases hc : w.Cuts b segment
  · rw [if_pos (hcuts.1 hc)] at hof
    have hholds := htook.holds
    have hpieces := htook.pieces
    have hwritten := htook.written
    rw [if_pos hc] at hholds hpieces hwritten ⊢
    refine ⟨?_, ?_, ?_, ?_⟩
    · rw [hof]
      exact hholds
    · rw [hof, htime]
      exact List.rel_append h.frames
        (.cons (Entry.frames_piece _ _ _ (hb.size_lt hs.fits) hcount) .nil)
    · rw [hpieces, h.pieces, List.length_append]
      exact (UInt32.ofNat_add _ 1).symm
    · rw [hwritten, h.written, hb.entrySize_eq]
      simp
  · rw [if_neg fun hcut => hc (hcuts.2 hcut)] at hof
    have hholds := htook.holds
    have hpieces := htook.pieces
    have hwritten := htook.written
    rw [if_neg hc] at hholds hpieces hwritten ⊢
    refine ⟨?_, ?_, ?_, ?_⟩
    · rw [hof]
      exact hholds
    · rw [hof, htime]
      simpa using h.frames
    · rw [hpieces, h.pieces]
      simp
    · rw [hwritten, h.written]
      simp

/-- **Without a drain, entries only come.** -/
theorem Sound.count_entries_step (h : run.Sound options) {m : Move} (hm : m.admitted run)
    (hd : m.drains = false) (x : Bytes) :
    (run.step m).entries.count x =
      run.entries.count x + (m.ledger run).published.entries.count x := by
  have hx := (h.step m hm).2.entries x
  obtain ⟨ha, hdis, hun⟩ := ledger_of_not_drains run hd
  rw [ha, hdis, hun, Entry.split_nil] at hx
  exact hx

/-- **While a writer is open** there is none. -/
theorem Sound.entries_step (h : run.Sound options) (hw : run.writers[place]? = some w) (m : Move)
    (hm : m.admitted run) (x : Bytes) :
    (run.step m).entries.count x =
      run.entries.count x + (m.ledger run).published.entries.count x := by
  refine h.count_entries_step hm ?_ x
  cases hd : m.drains with
  | false => rfl
  | true =>
    rw [h.writers_eq_nil (hm.1 hd)] at hw
    cases hw

theorem Sound.added_eq (h : run.Sound options) (hw : run.writers[place]? = some w) {m : Move}
    (hm : m.admitted run) {entry : Option Bytes}
    (hp : (m.ledger run).published.entries = entry.toList) : run.added m = entry.toList := by
  have hperm : (run.added m).Perm entry.toList := by
    rw [List.perm_iff_count]
    intro x
    rw [added, List.count_diff, h.entries_step hw m hm, hp, Nat.add_sub_cancel_left]
  cases entry with
  | none => exact List.perm_nil.1 hperm
  | some e => exact List.perm_singleton.1 hperm

theorem Sound.count_added_le (h : run.Sound options) (hw : run.writers[place]? = some w) {m : Move}
    (hm : m.admitted run) {cut : List Bytes} (hcut : ∀ x, cut.count x ≤ run.entries.count x)
    (x : Bytes) : (cut ++ run.added m).count x ≤ (run.step m).entries.count x := by
  have hx := hcut x
  rw [List.count_append, added, List.count_diff, h.entries_step hw m hm]
  omega

theorem Sound.added_append (h : run.Sound options) (hw : run.writers[place]? = some w)
    (segment : Bytes) (hm : (Move.append place segment).admitted run) :
    run.added (.append place segment) = (w.cutOff? segment run.recorder.clock).toList ∧
      run.flushed (.append place segment) = (run.added (.append place segment)).length := by
  have hledger : ((Move.append place segment).ledger run).published =
      ⟨(w.cutOff? segment run.recorder.clock).toList, []⟩ := by
    simp [Move.ledger, hw]
  have hadded := h.added_eq hw hm (by
    rw [hledger]
    exact List.append_nil _)
  refine ⟨hadded, ?_⟩
  rw [flushed, (h.step _ hm).2.cut, hledger, hadded, Nat.add_sub_cancel_left]

/-- **What is known of a session at any time.** -/
structure Course (options : RecorderOptions) (startTime : UInt64) (run : Run) (place : Nat)
    (given : List (Bytes × Nat)) (cut : List Bytes) (flushes : Nat) : Prop where
  reachable : Reachable options run
  flushes : flushes = cut.length
  kept : ∀ x, cut.count x ≤ run.entries.count x
  writer : ∃ w, run.writers[place]? = some w ∧ w.startTime = startTime ∧
    (w.Gone ∨ Progress w run.recorder.epoch.current given cut)

section

variable {startTime : UInt64} {given : List (Bytes × Nat)} {cut : List Bytes} {flushes : Nat}

theorem Reachable.course (h : Reachable options run) (ht : run.recorder.clock = startTime)
    (thread : ThreadId) (kind : BufferKind) (hm : (Move.start thread kind).admitted run) :
    Course options startTime (run.step (.start thread kind)) run.writers.length [] []
      (run.flushed (.start thread kind)) := by
  obtain ⟨w, hw, htime, hpin, hpieces, hwritten, hrun⟩ := h.sound.writer_start thread kind hm
  have hr := h.step _ hm
  have hpin' := (hr.sound.writers w (List.mem_of_getElem? hw)).2
  refine ⟨hr, ?_, fun _ => Nat.zero_le _, w, hw, htime.trans ht, hrun.imp id ?_⟩
  · rw [flushed, (h.sound.step _ hm).2.cut]
    exact Nat.sub_self _
  · rintro ⟨b, hb⟩
    rw [hpin, Option.some.injEq] at hpin'
    rw [← hpin']
    exact ⟨⟨b, hb⟩, .nil, hpieces, hwritten⟩

/-- The writer takes a segment. -/
theorem Course.segment (h : Course options startTime run place given cut flushes)
    (hn : given.length < UInt32.size) (segment : Bytes)
    (hm : (Move.append place segment).admitted run) :
    Course options startTime (run.step (.append place segment)) place
      (given ++ [(segment, run.room place)]) (cut ++ run.added (.append place segment))
      (flushes + run.flushed (.append place segment)) := by
  have hr := h.reachable.sound
  have hr' := h.reachable.step _ hm
  obtain ⟨w, hw, htime, hprogress⟩ := h.writer
  obtain ⟨w', hw', hid, hgone, hlive⟩ := hr.writer_append hw segment hm
  obtain ⟨hadded, hflushed⟩ := hr.added_append hw segment hm
  obtain ⟨-, -, htime', hpin⟩ := Writer.identity_eq_iff.1 hid
  refine ⟨hr', ?_, hr.count_added_le hw hm h.kept, w', hw', htime'.trans htime, ?_⟩
  · rw [h.flushes, hflushed, List.length_append]
  · rw [hr.current_eq hr'.sound (List.mem_of_getElem? hw) (List.mem_of_getElem? hw') hpin, hadded]
    rcases hprogress with hg | hprogress
    · exact .inl (hgone hg)
    · obtain ⟨b, hb⟩ := hprogress.holds
      refine (hlive b _ hb).imp id fun htook => ?_
      have hroom : run.room place = b.free := by
        rw [room, hw]
        simp [hb.buffer]
      have hs := (hr.seen hw).1
      rw [hb.buffer] at hs
      rw [hroom]
      exact hprogress.append hb hs htook htime' hn run.recorder.clock

/-- **What others do is of no account to a session**: its writer goes on with the same run, perhaps
at another place, and the entries that it has added are still in the buffers. -/
theorem Course.other (h : Course options startTime run place given cut flushes) (m : Move)
    (hm : m.admitted run) (hne : m.writer? ≠ some place) :
    Course options startTime (run.step m) (m.placeAfter place) given cut flushes := by
  have hr := h.reachable.sound
  have hr' := h.reachable.step m hm
  obtain ⟨w, hw, htime, hprogress⟩ := h.writer
  have hw' := writer_other hw m hne
  refine ⟨hr', h.flushes, ?_, w, hw', htime, ?_⟩
  · intro x
    rw [hr.entries_step hw m hm]
    exact Nat.le_trans (h.kept x) (Nat.le_add_right _ _)
  · rw [hr.current_eq hr'.sound (List.mem_of_getElem? hw) (List.mem_of_getElem? hw') rfl]
    exact hprogress

theorem Session.course (h : Session options startTime run place given cut flushes)
    (hn : given.length < UInt32.size) :
    Course options startTime run place given cut flushes := by
  induction h with
  | start h ht thread kind hm => exact h.course ht thread kind hm
  | segment c segment hm ih =>
    rw [List.length_append] at hn
    exact (ih (by omega)).segment (by omega) segment hm
  | other c m hm hne ih => exact (ih hn).other m hm hne

/-! ## 5. The end of a session -/

theorem Sound.admitted_finish (h : run.Sound options) (hw : run.writers[place]? = some w) :
    (Move.finish place).admitted run := by
  refine ⟨fun hd => (by cases hd), ?_⟩
  obtain ⟨hs, hv, -⟩ := h.seen hw
  obtain ⟨n, r₁, hanswer, -, -, -⟩ := hv.finish hs
  have hfault : run.fault? (.finish place) = none := by
    simp [fault?, act, Run.close, Run.perform, hw, hanswer, faultOf]
  rw [Move.granted, hfault]
  rfl

/-- What the end of a writer adds is its last entry, if it has segments for one, and no flush is
counted. -/
theorem Sound.added_finish_eq (h : run.Sound options) (hw : run.writers[place]? = some w) :
    run.added (.finish place) = (w.lastPiece? run.recorder.clock).toList ∧
      run.flushed (.finish place) = 0 := by
  have hm := h.admitted_finish hw
  have hledger : ((Move.finish place).ledger run).published =
      ⟨[], (w.lastPiece? run.recorder.clock).toList⟩ := by
    simp [Move.ledger, hw]
  refine ⟨h.added_eq hw hm (congrArg Published.entries hledger), ?_⟩
  rw [flushed, (h.step _ hm).2.cut, hledger]
  exact Nat.sub_self _

theorem Sound.added_finish {b : Buffer} {segments : List Bytes} (h : run.Sound options)
    (hw : run.writers[place]? = some w) (hb : w.Holds b segments run.recorder.epoch.current)
    (hne : segments ≠ []) (hcount : segments.length < UInt32.size) :
    run.added (.finish place) =
      [Entry.piece segments w.startTime (w.elapsed run.recorder.clock) false] ∧
    run.flushed (.finish place) = 0 := by
  have hadded := h.added_finish_eq hw
  rwa [hb.lastPiece?_eq, if_neg ((hb.segments_eq_zero_iff hcount).not.2 hne)] at hadded

/-- **One frame more, which is the last one.** -/
theorem frames_concat {entries : List Bytes} {runs : List (List Bytes)} {last : Bytes}
    {current : List Bytes}
    (h : List.Forall₂ (fun e run => Entry.Frames e run startTime true) entries runs)
    (hlast : Entry.Frames last current startTime false) {i : Nat} {entry : Bytes}
    {segments : List Bytes} (he : (entries ++ [last])[i]? = some entry)
    (hsegments : (runs ++ [current])[i]? = some segments) :
    Entry.Frames entry segments startTime (decide (i + 1 < entries.length + 1)) := by
  have hlength := h.length_eq
  rcases Nat.lt_trichotomy i entries.length with hi | rfl | hi
  · rw [List.getElem?_append_left hi] at he
    rw [List.getElem?_append_left (hlength ▸ hi)] at hsegments
    have hrel := (List.forall₂_iff_get.1 h).2 i hi (hlength ▸ hi)
    obtain ⟨_, rfl⟩ := List.getElem?_eq_some_iff.1 he
    obtain ⟨_, rfl⟩ := List.getElem?_eq_some_iff.1 hsegments
    have hd : decide (i + 1 < entries.length + 1) = true := decide_eq_true (by omega)
    rw [hd]
    exact hrel
  · rw [List.getElem?_concat_length] at he
    rw [hlength, List.getElem?_concat_length] at hsegments
    cases he
    cases hsegments
    have hd : decide (entries.length + 1 < entries.length + 1) = false :=
      decide_eq_false (by omega)
    rw [hd]
    exact hlast
  · have hout : (entries ++ [last]).length ≤ i := by
      rw [List.length_append]
      exact hi
    rw [List.getElem?_eq_none_iff.2 hout] at he
    cases he

theorem length_flatten_of_frames {flushpoint : Bool} {entries : List Bytes}
    {runs : List (List Bytes)}
    (h : List.Forall₂ (fun e run => Entry.Frames e run startTime flushpoint) entries runs) :
    entries.flatten.length = Header.length * entries.length + runs.flatten.flatten.length := by
  induction h with
  | nil => rfl
  | cons hframe _ ih =>
    obtain ⟨-, -, -, hlen, -⟩ := hframe
    simp only [List.length_cons, List.flatten_cons, List.flatten_append, List.length_append, hlen,
      ih, Nat.mul_add]
    omega

/-- **The entries are counted in full**, since there are no more of them than segments. -/
theorem Progress.toNat_pieces {e : Epoch} (h : Progress w e given cut) (hne : given ≠ [])
    (hn : given.length < UInt32.size) : w.pieces.toNat = cut.length + 1 := by
  have hruns := Cutting.length_runs_le hne
  rw [Cutting.runs, List.length_append, List.length_singleton, ← h.frames.length_eq] at hruns
  rw [h.pieces, UInt32.toNat_ofNat_of_lt' (Nat.lt_of_le_of_lt hruns hn)]

theorem Progress.written_eq {e : Epoch} (h : Progress w e given cut) (hsegments : w.segments ≠ 0) :
    w.written + w.lastSize (Cutting.of given).current =
      Header.length * (cut.length + 1) + (given.map Prod.fst).flatten.length := by
  have hruns : (given.map Prod.fst).flatten.length =
      (Cutting.of given).closed.flatten.flatten.length +
        (Cutting.of given).current.flatten.length := by
    rw [← Cutting.flatten_runs, Cutting.runs, List.flatten_append, List.flatten_append,
      List.length_append, List.flatten_singleton]
  rw [h.written, length_flatten_of_frames h.frames, Writer.lastSize, if_neg hsegments, hruns,
    Nat.mul_add]
  omega

/-- **How a checkpoint is framed.**  If a writer was given segments and is not dropped, then with
its end it has added one entry for each run into which they are cut: the entry is the run under a
header that gives its size, the number of its segments and the start time, and all of them but the
last are flushpoints.  The entries are in the buffers of the recorder, every cut was counted as a
flush, and the answer is the bytes of all entries. -/
theorem Session.framed (h : Session options startTime run place given cut flushes)
    (hne : given ≠ []) (hn : given.length < UInt32.size) (hw : run.writers[place]? = some w)
    (hlive : w.dropped = false) :
    let entries := cut ++ run.added (.finish place)
    let runs := (Cutting.of given).runs
    runs.flatten = given.map Prod.fst ∧ (∀ segments ∈ runs, segments ≠ []) ∧
    runs.length = w.pieces.toNat ∧ entries.length = w.pieces.toNat ∧
    (∀ i entry segments, entries[i]? = some entry → runs[i]? = some segments →
      Entry.Frames entry segments startTime (decide (i + 1 < w.pieces.toNat))) ∧
    (∀ x, entries.count x ≤ (run.step (.finish place)).entries.count x) ∧
    flushes + run.flushed (.finish place) = w.pieces.toNat - 1 ∧
    (Fallible.runOn w.finish run.recorder).1 =
      .ok (32 * w.pieces.toNat + (given.map Prod.fst).flatten.length) := by
  intro entries runs
  have hcourse := h.course hn
  have hsound := hcourse.reachable.sound
  obtain ⟨w', hw', htime, hprogress⟩ := hcourse.writer
  obtain rfl : w = w' := Option.some.inj (hw.symm.trans hw')
  have hprogress : Progress w run.recorder.epoch.current given cut := by
    refine hprogress.resolve_left fun hgone => ?_
    rw [hgone.dropped] at hlive
    cases hlive
  obtain ⟨b, hb⟩ := hprogress.holds
  obtain ⟨hs, hv, -⟩ := hsound.seen hw
  have hcurrent : (Cutting.of given).current ≠ [] :=
    Cutting.ne_nil_of_mem_runs hne _ (List.mem_append_right _ List.mem_cons_self)
  have hcount := Nat.lt_of_le_of_lt (length_current_le given) hn
  have hpieces := hprogress.toNat_pieces hne hn
  have hlast : Entry.Frames (Entry.piece (Cutting.of given).current w.startTime
      (w.elapsed run.recorder.clock) false) (Cutting.of given).current startTime false := by
    rw [hb.buffer] at hs
    rw [← htime]
    exact Entry.frames_piece _ _ _ (hb.size_lt hs.fits) hcount
  obtain ⟨hadded, hflushed⟩ := hsound.added_finish hw hb hcurrent hcount
  have hentries : entries = cut ++ [_] := congrArg (cut ++ ·) hadded
  have hruns : runs = (Cutting.of given).closed ++ [(Cutting.of given).current] := rfl
  refine ⟨Cutting.flatten_runs given, Cutting.ne_nil_of_mem_runs hne, ?_, ?_, ?_,
    hsound.count_added_le hw (hsound.admitted_finish hw) hcourse.kept, ?_, ?_⟩
  · rw [hruns, List.length_append, hpieces, hprogress.frames.length_eq]
    rfl
  · rw [hentries, List.length_append, hpieces]
    rfl
  · intro i entry segments he hsegments
    rw [hentries] at he
    rw [hpieces]
    exact frames_concat (htime ▸ hprogress.frames) hlast he hsegments
  · rw [hflushed, hcourse.flushes, hpieces]
    rfl
  · obtain ⟨n, r₁, hanswer, -, -, hanswered⟩ := hv.finish hs
    rw [hanswer, hanswered b _ hb,
      hprogress.written_eq ((hb.segments_eq_zero_iff hcount).not.2 hcurrent), hpieces]
    rfl

/-- The second segment finds no room behind the first one, and begins a second entry; another
writer has started in between. -/
theorem Session.framed_two_pieces :
    let first := small.step (.start 7 .threadLocal)
    let second := first.step (.append 0 (List.replicate 20 1))
    let third := second.step (.start 9 .global)
    let run := third.step (.append 0 (List.replicate 40 2))
    ∃ w, run.writers[0]? = some w ∧ w.dropped = false ∧ w.pieces = 2 ∧
      (Fallible.runOn w.finish run.recorder).1 = .ok 124 := by
  intro first second third run
  have hstart : Session smallOptions 0 first 0 [] [] _ :=
    .start (.create create_small) rfl 7 .threadLocal (by decide +kernel)
  have h := ((hstart.segment (List.replicate 20 1) (by decide +kernel)).other
    (.start 9 .global) (by decide +kernel) (fun hw => by cases hw)).segment
    (List.replicate 40 2) (by decide +kernel)
  have hopen : run.writers[0]?.any (fun w => !w.dropped && w.pieces == 2) = true := by
    decide +kernel
  obtain ⟨w, hw, hwriter⟩ := (Option.any_eq_true _ _).1 hopen
  simp only [Bool.and_eq_true, Bool.not_eq_true', beq_iff_eq] at hwriter
  obtain ⟨-, -, -, -, -, -, -, hanswer⟩ :=
    h.framed (List.cons_ne_nil _ _) (by decide) hw hwriter.1
  rw [hwriter.2] at hanswer
  exact ⟨w, hw, hwriter.1, hwriter.2, hanswer⟩

end

end Run

end TraceRecorder
