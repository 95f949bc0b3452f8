/-
# What writers answer at their end

`Writer.finish` answers with the bytes that a checkpoint committed, and with 0 if the checkpoint was
dropped.  What a dropped checkpoint had cut off before is committed all the same: it is in the
buffers of the recorder, and drains send or discard it.

* `Session.tallied`: while a writer is not dropped it has counted the bytes of the entries that it
  has cut off;
* `Session.answered`: so its answer is the bytes of all its entries, unless it is dropped.

`Notes` are kept along a run: a tab for each open writer, with the entries that it has committed,
and a receipt for each that has ended.  `Noted.receipts` adds up the receipts: the answers fall
short of what was committed by the entries of the dropped checkpoints.
-/
import Mathlib.Algebra.GroupWithZero.Nat
import TraceRecorder.Proofs.Recorder.Aborts
import TraceRecorder.Proofs.Run.Conservation
import TraceRecorder.Proofs.Run.Framing

namespace TraceRecorder

namespace Run

variable {options : RecorderOptions} {run : Run} {place : Nat} {w : Writer}

/-! ## 1. What a writer has counted -/

theorem Sound.published_finish (h : run.Sound options) (hw : run.writers[place]? = some w) :
    ((Move.finish place).ledger run).published.entries = run.added (.finish place) := by
  rw [(h.added_finish_eq hw).1]
  simp [Move.ledger, hw, Published.entries]

theorem Sound.published_append (h : run.Sound options) (hw : run.writers[place]? = some w)
    (segment : Bytes) (hm : (Move.append place segment).admitted run) :
    ((Move.append place segment).ledger run).published.entries =
      run.added (.append place segment) := by
  rw [(h.added_append hw segment hm).1]
  simp [Move.ledger, hw, Published.entries]

/-- **The writer is gone, or has counted the bytes of the entries that it has cut off.** -/
structure Tallied (options : RecorderOptions) (run : Run) (place : Nat) (cut : List Bytes) :
    Prop where
  reachable : Reachable options run
  writer : ∃ w, run.writers[place]? = some w ∧
    (w.Gone ∨ (∃ b segments, w.Holds b segments run.recorder.epoch.current) ∧
      w.written = cut.flatten.length)

section

variable {startTime : UInt64} {given : List (Bytes × Nat)} {cut : List Bytes} {flushes : Nat}

theorem Reachable.tallied (h : Reachable options run) (thread : ThreadId) (kind : BufferKind)
    (hm : (Move.start thread kind).admitted run) :
    Tallied options (run.step (.start thread kind)) run.writers.length [] := by
  obtain ⟨w, hw, -, hpin, -, hwritten, hrun⟩ := h.sound.writer_start thread kind hm
  have hr := h.step _ hm
  have hpin' := (hr.sound.writers w (List.mem_of_getElem? hw)).2
  rw [hpin, Option.some.injEq] at hpin'
  refine ⟨hr, w, hw, hrun.imp id ?_⟩
  rintro ⟨b, hb⟩
  exact ⟨⟨b, [], hpin' ▸ hb⟩, hwritten⟩

/-- **A segment that cuts off an entry** makes the writer count it, or the writer is gone. -/
theorem Tallied.segment (h : Tallied options run place cut) (segment : Bytes)
    (hm : (Move.append place segment).admitted run) :
    Tallied options (run.step (.append place segment)) place
      (cut ++ run.added (.append place segment)) := by
  have hr := h.reachable.sound
  have hr' := h.reachable.step _ hm
  obtain ⟨w, hw, hstate⟩ := h.writer
  obtain ⟨w', hw', hid, hgone, hlive⟩ := hr.writer_append hw segment hm
  obtain ⟨-, -, -, hpin⟩ := Writer.identity_eq_iff.1 hid
  refine ⟨hr', w', hw', ?_⟩
  rw [hr.current_eq hr'.sound (List.mem_of_getElem? hw) (List.mem_of_getElem? hw') hpin,
    (hr.added_append hw segment hm).1]
  rcases hstate with hg | ⟨⟨b, segments, hb⟩, hwritten⟩
  · exact .inl (hgone hg)
  · refine (hlive b segments hb).imp id fun htook => ?_
    obtain ⟨b', hb'⟩ := htook.holds
    refine ⟨⟨b', _, hb'⟩, ?_⟩
    rw [htook.written, hwritten, hb.cutOff?_eq, hb.entrySize_eq]
    split <;> simp

/-- **What others do does not change what a writer has counted**, at whichever place it stands
then. -/
theorem Tallied.other (h : Tallied options run place cut) (m : Move) (hm : m.admitted run)
    (hne : m.writer? ≠ some place) : Tallied options (run.step m) (m.placeAfter place) cut := by
  have hr := h.reachable.sound
  have hr' := h.reachable.step m hm
  obtain ⟨w, hw, hstate⟩ := h.writer
  have hw' := writer_other hw m hne
  refine ⟨hr', w, hw', ?_⟩
  rw [hr.current_eq hr'.sound (List.mem_of_getElem? hw) (List.mem_of_getElem? hw') rfl]
  exact hstate

/-- **A writer has counted what it has cut off**, as long as it is not dropped. -/
theorem Session.tallied (h : Session options startTime run place given cut flushes) :
    Tallied options run place cut := by
  induction h with
  | start h _ thread kind hm => exact h.tallied thread kind hm
  | segment _ segment hm ih => exact ih.segment segment hm
  | other _ m hm hne ih => exact ih.other m hm hne

/-- **What a writer answers at its end**: the bytes of all its entries, or 0 if it is dropped; and
then its end adds no entry to those that it has cut off. -/
theorem Session.answered (h : Session options startTime run place given cut flushes)
    (hw : run.writers[place]? = some w) :
    (Fallible.runOn w.finish run.recorder).1 =
      .ok (if w.dropped then 0 else (cut ++ run.added (.finish place)).flatten.length) ∧
    (w.dropped = true → run.added (.finish place) = []) := by
  have htallied := h.tallied
  have hsound := htallied.reachable.sound
  obtain ⟨w', hw', hstate⟩ := htallied.writer
  obtain rfl : w = w' := Option.some.inj (hw.symm.trans hw')
  rw [(hsound.added_finish_eq hw).1]
  rcases hstate with hgone | ⟨⟨b, segments, hb⟩, hwritten⟩
  · rw [hgone.lastPiece?_eq, hgone.runOn_finish, if_pos hgone.dropped]
    exact ⟨rfl, fun _ => rfl⟩
  · obtain ⟨hs, hv, -⟩ := hsound.seen hw
    obtain ⟨n, r₁, hanswer, -, -, hanswered⟩ := hv.finish hs
    rw [hanswer, hanswered b segments hb, if_neg (by simp [hb.alive]), hb.lastPiece?_eq, hwritten,
      Writer.lastSize]
    refine ⟨?_, fun hdropped => ?_⟩
    · split <;> simp
    · rw [hb.alive] at hdropped
      cases hdropped

end

/-! ## 2. Notes -/

/-- What is known of a writer that has ended. -/
structure Receipt where
  /-- The entries that it has committed. -/
  committed : List Bytes
  dropped : Bool
  /-- What it answered. -/
  answer : Except Fault Nat

namespace Receipt

def bytes (r : Receipt) : Nat := r.committed.flatten.length

def reported (r : Receipt) : Nat := r.answer.toOption.getD 0

end Receipt

/-- **What is noted of the writers of a run.** -/
structure Notes where
  /-- The entries that each open writer has committed, by its place. -/
  tabs : List (List Bytes) := []
  /-- One for each writer that has ended, abandoned ones apart. -/
  receipts : List Receipt := []

/-- The receipt of an open writer that ends now. -/
def receipt? (run : Run) (tab : List Bytes) (place : Nat) : Option Receipt :=
  run.writers[place]?.map fun w =>
    ⟨tab ++ run.added (.finish place), w.dropped, (Fallible.runOn w.finish run.recorder).1⟩

/-- **What is noted in a move.** -/
def noted (run : Run) (notes : Notes) : Move → Notes
  | .start _ _ => { notes with tabs := notes.tabs ++ [[]] }
  | .append place segment =>
    { notes with tabs := notes.tabs.modify place (· ++ run.added (.append place segment)) }
  | .finish place =>
    { tabs := notes.tabs.eraseIdx place
      receipts := notes.receipts ++ (run.receipt? ((notes.tabs[place]?).getD []) place).toList }
  | .abandon place => { notes with tabs := notes.tabs.eraseIdx place }
  | _ => notes

/-- **A run with its ledger and notes.** -/
inductive Noted (options : RecorderOptions) : Run → Ledger → Notes → Prop where
  | create {host : Host} {r : Recorder} (h : Recorder.create options host = .ok r) :
      Noted options { recorder := r } {} {}
  | step {run : Run} {l : Ledger} {notes : Notes} (c : Noted options run l notes) (m : Move)
      (h : m.admitted run) :
      Noted options (run.step m) (l ++ m.ledger run) (run.noted notes m)

variable {l : Ledger} {notes : Notes} {m : Move}

theorem Booked.noted (h : Booked options run l) : ∃ notes, Noted options run l notes := by
  induction h with
  | create h => exact ⟨{}, .create h⟩
  | step _ m hm ih =>
    obtain ⟨notes, hnotes⟩ := ih
    exact ⟨_, hnotes.step m hm⟩

theorem Noted.booked (h : Noted options run l notes) : Booked options run l := by
  induction h with
  | create h => exact .create h
  | step _ m hm ih => exact ih.step m hm

def annotate (run : Run) (notes : Notes) : List Move → Notes
  | [] => notes
  | m :: rest => (run.step m).annotate (run.noted notes m) rest

theorem Noted.walk (h : Noted options run l notes) (moves : List Move) (hm : run.Admits moves) :
    Noted options (run.walk moves) (run.book l moves) (run.annotate notes moves) := by
  induction moves generalizing run l notes with
  | nil => exact h
  | cons m rest ih => exact ih (h.step m hm.1) hm.2

/-! ## 3. Tabs -/

/-- **Each open writer has a tab**, which holds the entries of its session. -/
structure Tabbed (options : RecorderOptions) (run : Run) (tabs : List (List Bytes)) : Prop where
  length : tabs.length = run.writers.length
  session : ∀ place cut, tabs[place]? = some cut →
    ∃ startTime given flushes, Session options startTime run place given cut flushes

namespace Tabbed

variable {tabs : List (List Bytes)}

theorem exists_tab (h : Tabbed options run tabs) {place : Nat} {w : Writer}
    (hw : run.writers[place]? = some w) : ∃ tab, tabs[place]? = some tab := by
  have hlt := (List.getElem?_eq_some_iff.1 hw).1
  rw [← h.length] at hlt
  exact ⟨_, List.getElem?_eq_getElem hlt⟩

theorem length_le (h : Tabbed options run tabs) {place : Nat} (hw : run.writers[place]? = none) :
    tabs.length ≤ place :=
  Nat.le_trans (Nat.le_of_eq h.length) (List.getElem?_eq_none_iff.1 hw)

theorem other (h : Tabbed options run tabs) (m : Move) (hm : m.admitted run)
    (hwriters : (run.step m).writers.length = run.writers.length)
    (hnone : m.writer? = none) (hplace : ∀ place, m.placeAfter place = place) :
    Tabbed options (run.step m) tabs where
  length := by rw [h.length, hwriters]
  session place cut hcut := by
    obtain ⟨t, given, flushes, c⟩ := h.session place cut hcut
    have hother := c.other m hm (by rw [hnone]; nofun)
    rw [hplace] at hother
    exact ⟨t, given, flushes, hother⟩

/-- A writer that starts gets an empty tab. -/
theorem start (h : Tabbed options run tabs) (hr : Reachable options run) {thread : ThreadId}
    {kind : BufferKind} (hm : (Move.start thread kind).admitted run) :
    Tabbed options (run.step (.start thread kind)) (tabs ++ [[]]) where
  length := by
    obtain ⟨w, r, -, hstart⟩ := hr.sound.runOn_start hm
    have hstep : run.step (.start thread kind) = _ := congrArg Prod.snd hstart
    rw [hstep, List.length_append, List.length_append, h.length]
    rfl
  session place cut hcut := by
    by_cases hlt : place < tabs.length
    · rw [List.getElem?_append_left hlt] at hcut
      obtain ⟨t, given, flushes, c⟩ := h.session place cut hcut
      exact ⟨t, given, flushes, c.other _ hm nofun⟩
    · obtain rfl : place = tabs.length := by
        have hle := (List.getElem?_eq_some_iff.1 hcut).1
        rw [List.length_append, List.length_singleton] at hle
        omega
      rw [List.getElem?_concat_length] at hcut
      cases hcut
      rw [h.length]
      exact ⟨_, _, _, .start hr rfl thread kind hm⟩

/-- What a segment cuts off is put on the tab of its writer. -/
theorem append (h : Tabbed options run tabs) (hr : Reachable options run) {place : Nat}
    {segment : Bytes} (hm : (Move.append place segment).admitted run) :
    Tabbed options (run.step (.append place segment))
      (tabs.modify place (· ++ run.added (.append place segment))) where
  length := by
    rw [List.length_modify, h.length]
    cases hw : run.writers[place]? with
    | none =>
      show _ = (run.append place segment).2.writers.length
      rw [Run.append, hw]
    | some w =>
      obtain ⟨outcome, w', r, -, -, hact⟩ := hr.sound.runOn_append hw hm
      have hstep : run.step (.append place segment) = _ := congrArg Prod.snd hact
      rw [hstep, List.length_set]
  session place' cut hcut := by
    rw [List.getElem?_modify] at hcut
    obtain ⟨cut', hcut', rfl⟩ := Option.map_eq_some_iff.1 hcut
    obtain ⟨t, given, flushes, c⟩ := h.session place' cut' hcut'
    by_cases hplace : place = place'
    · subst hplace
      rw [if_pos rfl]
      exact ⟨t, _, _, c.segment segment hm⟩
    · rw [if_neg hplace]
      exact ⟨t, _, _, c.other _ hm fun heq => hplace (Option.some.inj heq)⟩

/-- **A writer that is closed takes its tab along**, and those behind it move up. -/
theorem close (h : Tabbed options run tabs) {m : Move} (hm : m.admitted run) {place : Nat}
    (hwriters : (run.step m).writers = run.writers.eraseIdx place)
    (hwriter : m.writer? = some place)
    (hplace : ∀ i, m.placeAfter i = if place < i then i - 1 else i) :
    Tabbed options (run.step m) (tabs.eraseIdx place) where
  length := by rw [hwriters, List.length_eraseIdx, List.length_eraseIdx, h.length]
  session j cut hcut := by
    obtain ⟨i, hi, hne, hafter⟩ : ∃ i, tabs[i]? = some cut ∧ place ≠ i ∧ m.placeAfter i = j := by
      rw [List.getElem?_eraseIdx] at hcut
      split at hcut
      · rename_i hlt
        exact ⟨j, hcut, by omega, by rw [hplace, if_neg (by omega)]⟩
      · rename_i hlt
        exact ⟨j + 1, hcut, by omega, by rw [hplace, if_pos (by omega), Nat.add_sub_cancel]⟩
    obtain ⟨t, given, flushes, c⟩ := h.session i cut hi
    have hother := c.other m hm fun heq => hne (Option.some.inj (hwriter.symm.trans heq))
    rw [hafter] at hother
    exact ⟨t, given, flushes, hother⟩

end Tabbed

theorem writers_close {α : Type} (run : Run) (place : Nat) (x : Writer → Action α) :
    (run.close place x).2.writers = run.writers.eraseIdx place := by
  cases hw : run.writers[place]? with
  | none =>
    rw [close, hw, List.eraseIdx_of_length_le (List.getElem?_eq_none_iff.1 hw)]
  | some w => rw [close_eq hw]

/-- **After a move each open writer has a tab** if it had one before. -/
theorem Tabbed.step (h : Tabbed options run notes.tabs) (hr : Reachable options run)
    (hm : m.admitted run) : Tabbed options (run.step m) (run.noted notes m).tabs := by
  cases m with
  | start thread kind => exact h.start hr hm
  | append place segment => exact h.append hr hm
  | finish place => exact h.close hm (writers_close run place Writer.finish) rfl fun _ => rfl
  | abandon place => exact h.close hm (writers_close run place Writer.abandon) rfl fun _ => rfl
  | replaceSink sink =>
    refine h.other _ hm ?_ rfl fun _ => rfl
    show (run.replaceSink sink).2.writers.length = _
    unfold Run.replaceSink
    rcases Fallible.runOn (Recorder.replaceSink sink) run.recorder with ⟨fault | old, r⟩ <;> rfl
  | _ => exact h.other _ hm rfl rfl fun _ => rfl

theorem Noted.tabbed (h : Noted options run l notes) : Tabbed options run notes.tabs := by
  induction h with
  | create => exact ⟨rfl, fun place cut hcut => by simp at hcut⟩
  | step c m hm ih => exact ih.step c.booked.reachable hm

/-! ## 4. Receipts -/

/-- **A receipt says what was committed**, unless the checkpoint was dropped. -/
def Receipt.Right (r : Receipt) : Prop := r.answer = .ok (if r.dropped then 0 else r.bytes)

theorem Receipt.Right.reported_eq {r : Receipt} (h : r.Right) :
    r.reported = if r.dropped then 0 else r.bytes := by
  rw [reported, h]
  rfl

/-- **Every receipt is right.** -/
theorem Noted.right (h : Noted options run l notes) : ∀ r ∈ notes.receipts, r.Right := by
  induction h with
  | create => nofun
  | @step run l notes c m hm ih =>
    cases m with
    | finish place =>
      intro r hr
      rcases List.mem_append.1 hr with hr | hr
      · exact ih r hr
      · obtain ⟨w, hw, rfl⟩ := Option.map_eq_some_iff.1 (Option.mem_toList.1 hr)
        obtain ⟨cut, hcut⟩ := c.tabbed.exists_tab hw
        obtain ⟨t, given, flushes, hsession⟩ := c.tabbed.session place cut hcut
        rw [hcut]
        exact (hsession.answered hw).1
    | _ => exact ih

/-- **Right receipts fall short by what dropped checkpoints committed.** -/
theorem sum_reported_add {receipts : List Receipt} (h : ∀ r ∈ receipts, r.Right) :
    (receipts.map Receipt.reported).sum +
        ((receipts.filter Receipt.dropped).map Receipt.bytes).sum =
      (receipts.map Receipt.bytes).sum := by
  induction receipts with
  | nil => rfl
  | cons r receipts ih =>
    obtain ⟨hr, hreceipts⟩ := List.forall_mem_cons.1 h
    have hsum := ih hreceipts
    simp only [List.map_cons, List.sum_cons, List.filter_cons, hr.reported_eq]
    cases r.dropped <;> simp <;> omega

/-- What is noted of some writers: the entries of those that have ended, and of those that are
open. -/
def Notes.entries (notes : Notes) : List Bytes :=
  notes.receipts.flatMap Receipt.committed ++ notes.tabs.flatten

section

variable {tabs : List (List Bytes)} {tab : List Bytes}

theorem count_flatten_eraseIdx (h : tabs[place]? = some tab) (x : Bytes) :
    tabs.flatten.count x = tab.count x + (tabs.eraseIdx place).flatten.count x := by
  obtain ⟨hlt, rfl⟩ := List.getElem?_eq_some_iff.1 h
  rw [← (List.getElem_cons_eraseIdx_perm hlt).flatten.count_eq x, List.flatten_cons,
    List.count_append]

theorem count_flatten_modify (h : tabs[place]? = some tab) (entries : List Bytes) (x : Bytes) :
    (tabs.modify place (· ++ entries)).flatten.count x =
      tabs.flatten.count x + entries.count x := by
  have hmodify : (tabs.modify place (· ++ entries))[place]? = some (tab ++ entries) := by
    rw [List.getElem?_modify, h]
    simp
  rw [count_flatten_eraseIdx hmodify, count_flatten_eraseIdx h, List.eraseIdx_modify_of_eq,
    List.count_append]
  omega

end

/-- **What is noted was published.** -/
theorem Noted.published (h : Noted options run l notes) (x : Bytes) :
    notes.entries.count x ≤ l.published.entries.count x := by
  induction h with
  | create => exact Nat.le_refl _
  | @step run l notes c m hm ih =>
    have hsound := c.booked.reachable.sound
    have htabbed := c.tabbed
    rw [Ledger.published_append, Published.count_entries_append]
    refine Nat.le_trans ?_ (Nat.add_le_add_right ih _)
    cases m with
    | start thread kind => simp [Notes.entries, noted]
    | append place segment =>
      simp only [Notes.entries, noted, List.count_append]
      cases hw : run.writers[place]? with
      | none =>
        rw [List.modify_eq_self (htabbed.length_le hw)]
        omega
      | some w =>
        obtain ⟨tab, ht⟩ := htabbed.exists_tab hw
        rw [count_flatten_modify ht, hsound.published_append hw segment hm]
        omega
    | finish place =>
      simp only [Notes.entries, noted, List.count_append, List.flatMap_append]
      cases hw : run.writers[place]? with
      | none =>
        rw [List.eraseIdx_of_length_le (htabbed.length_le hw), receipt?, hw]
        simp only [Option.map_none, Option.toList_none, List.flatMap_nil, List.count_nil]
        omega
      | some w =>
        obtain ⟨tab, ht⟩ := htabbed.exists_tab hw
        rw [count_flatten_eraseIdx ht, ht, hsound.published_finish hw, receipt?, hw]
        simp only [Option.map_some, Option.toList_some, Option.getD_some, List.flatMap_singleton,
          List.count_append]
        omega
    | abandon place =>
      simp only [Notes.entries, noted, List.count_append]
      cases hw : run.writers[place]? with
      | none =>
        rw [List.eraseIdx_of_length_le (htabbed.length_le hw)]
        omega
      | some w =>
        obtain ⟨tab, ht⟩ := htabbed.exists_tab hw
        rw [count_flatten_eraseIdx ht]
        omega
    | _ => exact Nat.le_add_right _ _

/-- **What the receipts of a run add up to.**  A writer that is not dropped answers with the bytes
of all entries that it has committed, the flushed pieces among them, and a dropped one with 0.  So
the answers fall short of what was committed by the pieces of the dropped checkpoints.  All of it is
where published entries go: sinks have accepted it, buffers hold it, it was discarded, or a drain
has detached it and not sent. -/
theorem Noted.receipts (h : Noted options run l notes) :
    (∀ r ∈ notes.receipts, r.answer = .ok (if r.dropped then 0 else r.bytes)) ∧
    (notes.receipts.map Receipt.reported).sum +
        ((notes.receipts.filter Receipt.dropped).map Receipt.bytes).sum =
      (notes.receipts.map Receipt.bytes).sum ∧
    ∀ x, (notes.receipts.flatMap Receipt.committed).count x ≤
      (Entry.split l.accepted).count x + run.entries.count x + l.discarded.count x +
        l.unsent.count x := by
  refine ⟨h.right, sum_reported_add h.right, fun x => ?_⟩
  obtain ⟨r, hp, -, -, hsettles⟩ := h.booked.settles
  have hx := hsettles.entries x
  have hpublished := h.published x
  have hnone : ({ recorder := r } : Run).entries.count x = 0 := by
    rw [entries, Recorder.entries, hp]
    rfl
  rw [hnone] at hx
  rw [Notes.entries, List.count_append] at hpublished
  omega

/-- A second segment finds no room behind the first one, and both buffers of the pool are in use. -/
def starving : List Move :=
  [.start 7 .threadLocal, .append 0 (List.replicate 20 1), .start 9 .threadLocal,
    .append 0 (List.replicate 40 2), .finish 0]

/-- The piece that was cut off is committed, and the checkpoint answers with 0. -/
theorem Noted.receipts_starving :
    let notes := small.annotate {} starving
    (notes.receipts.map Receipt.reported).sum = 0 ∧ (notes.receipts.map Receipt.bytes).sum = 52 ∧
      ∀ r ∈ notes.receipts, r.answer = .ok 0 := by
  intro notes
  have h : Noted smallOptions (small.walk starving) _ notes :=
    (Noted.create create_small).walk starving (by decide +kernel)
  obtain ⟨hanswers, hsum, -⟩ := h.receipts
  have hdropped : (∀ r ∈ notes.receipts, r.dropped = true) ∧
      ((notes.receipts.filter Receipt.dropped).map Receipt.bytes).sum = 52 ∧
      (notes.receipts.map Receipt.bytes).sum = 52 := by decide +kernel
  refine ⟨by omega, hdropped.2.2, fun r hr => ?_⟩
  rw [hanswers r hr, if_pos (hdropped.1 r hr)]

/-- **The answers do not always add up to what was committed**, though no writer was abandoned. -/
theorem receipts_not_complete :
    ¬ ∀ (options : RecorderOptions) (run : Run) (l : Ledger) (notes : Notes),
      Noted options run l notes → run.recorder.aborted = false →
      (notes.receipts.map Receipt.reported).sum = (notes.receipts.map Receipt.bytes).sum := by
  intro h
  have hnoted : Noted smallOptions (small.walk starving) _ (small.annotate {} starving) :=
    (Noted.create create_small).walk starving (by decide +kernel)
  have hequal := h _ _ _ _ hnoted (by decide +kernel)
  exact absurd hequal (by decide +kernel)

end Run

end TraceRecorder
