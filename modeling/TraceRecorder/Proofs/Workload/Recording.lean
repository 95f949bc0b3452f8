/-
# The accounts of a recording

A recording with a single worker fills one chunk after the other (`Plan.Ready.answers_fillChunk`),
and each of them goes to a file of its own, for the names of chunk files differ
(`Plan.chunkName_inj`).

* `RecordingSession.answers_runChunks`: by induction on the chunks that are left, all files but the
  last have their bytes when the last chunk is filled, and no later chunk touches them;
* `RecordingSession.answers_run`, `RecordingSession.answers_finish`: then the recorder ends, and the
  last file gets its bytes;
* `Plan.accounts`: so if a recording ends without a fault its report agrees with what it left on the
  disk, however small the buffers were and however much was dropped.
-/
import TraceRecorder.Proofs.Storage.Directory
import TraceRecorder.Proofs.Run.Steps
import TraceRecorder.Proofs.Workload.Worker

namespace TraceRecorder

open Fallible (Answers Ends)

/-! ## 1. Names of chunk files -/

namespace Decimal

theorem toList_pushn (s : String) (c : Char) (n : Nat) :
    (s.pushn c n).toList = s.toList ++ List.replicate n c := by
  induction n with
  | zero => rw [List.replicate_zero, List.append_nil]; rfl
  | succ n ih =>
    show ((s.pushn c n).push c).toList = _
    rw [String.toList_push, ih, List.append_assoc, List.replicate_succ']

theorem toList_padded (width n : Nat) : (padded width n).toList =
    List.replicate (width - (toString n).length) '0' ++ Nat.toDigits 10 n := by
  have hdigits : (toString n).toList = Nat.toDigits 10 n := Nat.toList_repr
  rw [padded, String.toList_append, toList_pushn, hdigits]
  rfl

/-- **Padded numbers differ if the numbers do.** -/
theorem padded_inj {width n m : Nat} (h : padded width n = padded width m) : n = m := by
  have hzeros : ∀ k, Nat.ofDigitChars 10 (List.replicate k '0') 0 = 0 := by
    intro k
    induction k with
    | zero => rfl
    | succ k ih => simp [List.replicate_succ, Nat.ofDigitChars_cons, ih]
  have hvalue : ∀ k, Nat.ofDigitChars 10 (padded width k).toList 0 = k := by
    intro k
    rw [toList_padded, Nat.ofDigitChars_append, hzeros, Nat.ofDigitChars_toDigits] <;> decide
  rw [← hvalue n, h, hvalue m]

end Decimal

namespace Plan

variable {p : Plan} {chunk : Nat}

/-- The name of a chunk's file in its directory. -/
def chunkName (chunk : Nat) : String := "chunk-" ++ Decimal.padded 4 chunk ++ ".ckp"

theorem chunkName_inj {n m : Nat} (h : chunkName n = chunkName m) : n = m := by
  have hlist := congrArg String.toList h
  simp only [chunkName, String.toList_append] at hlist
  exact Decimal.padded_inj (String.toList_inj.1
    (List.append_cancel_left (List.append_cancel_right hlist)))

theorem toList_chunkName (chunk : Nat) :
    (chunkName chunk).toList = ['c', 'h', 'u', 'n', 'k', '-'] ++
      ((Decimal.padded 4 chunk).toList ++ ['.', 'c', 'k', 'p']) := by
  simp [chunkName, String.toList_append]

/-- **A chunk file has a plain name.** -/
theorem plain_chunkName (h : chunk < UInt64.size) : Path.Plain (chunkName chunk) where
  here := by
    have hne : ∀ s : String, s.toList.length ≤ 2 → (chunkName chunk == s) = false := by
      intro s hs
      refine beq_eq_false_iff_ne.2 fun heq => ?_
      have hlength := congrArg (fun s => s.toList.length) heq
      simp only [toList_chunkName, List.length_append, List.length_cons] at hlength
      omega
    rw [Path.isHere, hne _ (by decide), hne _ (by decide)]
    rfl
  up heq := by
    have hlist := congrArg String.toList heq
    rw [toList_chunkName] at hlist
    exact absurd (List.cons.inj hlist).1 (by decide)
  short := by
    have hdigits := length_toString_le h
    have hpadded : (Decimal.padded 4 chunk).toList.length ≤ 24 := by
      rw [Decimal.toList_padded, List.length_append, List.length_replicate, ← Nat.toList_repr]
      exact Nat.add_le_add (Nat.sub_le 4 _) hdigits
    have hbytes := Bytes.length_ofText_le (chunkName chunk)
    rw [Bytes.length_ofText, ← String.length_toList, toList_chunkName] at hbytes
    simp only [List.length_append, List.length_cons, List.length_nil] at hbytes
    exact decide_eq_true (by omega)
  whole c hc := by
    rw [toList_chunkName, Decimal.toList_padded] at hc
    simp only [List.mem_append] at hc
    have hfixed : ∀ c ∈ ['c', 'h', 'u', 'n', 'k', '-', '0', '.', 'c', 'k', 'p'],
        (c == '/') = false := by simp
    rcases hc with hc | (hc | hc) | hc
    · exact hfixed c (List.mem_append_left _ hc)
    · exact hfixed c (by simp [List.eq_of_mem_replicate hc])
    · have hdigit := Nat.isDigit_of_mem_toDigits (by decide) (by decide) hc
      refine beq_eq_false_iff_ne.2 fun heq => ?_
      rw [heq] at hdigit
      exact absurd hdigit (by decide)
    · exact hfixed c (List.mem_append_right ['c', 'h', 'u', 'n', 'k', '-', '0'] hc)

/-! ## 2. Chunks of a recording -/

/-- **So many chunks were filled meanwhile**, of so many bytes together. -/
structure Tally (p : Plan) (r r' : Recorder) (chunks bytes : Nat) : Prop where
  epoch : r'.epoch.current.value = (r.epoch.current.value + chunks) % 2
  written : r'.stats.bytesWritten = r.stats.bytesWritten + bytes
  discarded : r'.stats.bytesDiscarded = r.stats.bytesDiscarded
  rotations : r'.stats.rotations = r.stats.rotations + chunks
  purged : r'.stats.typeEntriesPurged = r.stats.typeEntriesPurged + 2 * chunks
  counted : r.CountsAll r' (chunks * p.chunkCheckpoints)

theorem Epoch.value_mod (e : Epoch) : e.value % 2 = e.value := by cases e <;> rfl

namespace Tally

variable {r r' r'' : Recorder} {n m a b : Nat}

theorem withSink (r : Recorder) (s : Sink) : p.Tally r (r.withSink s) 0 0 where
  epoch := (Epoch.value_mod _).symm
  written := rfl
  discarded := rfl
  rotations := rfl
  purged := rfl
  counted := by
    rw [Nat.zero_mul]
    exact .nothing rfl rfl

theorem trans (h : p.Tally r r' n a) (h' : p.Tally r' r'' m b) :
    p.Tally r r'' (n + m) (a + b) where
  epoch := by rw [h'.epoch, h.epoch]; omega
  written := by rw [h'.written, h.written, Nat.add_assoc]
  discarded := h'.discarded.trans h.discarded
  rotations := by rw [h'.rotations, h.rotations, Nat.add_assoc]
  purged := by rw [h'.purged, h.purged]; omega
  counted := by
    rw [Nat.add_mul]
    exact h.counted.trans h'.counted

end Tally

/-- **A chunk that was filled is counted.** -/
theorem FillsChunk.tally {r r' : Recorder} {gained : Bytes} (h : p.FillsChunk r gained r') :
    p.Tally r r' 1 gained.length where
  epoch := by
    rw [h.epoch]
    show r.epoch.current.other.value = _
    cases r.epoch.current <;> rfl
  written := h.written
  discarded := h.discarded
  rotations := h.rotations
  purged := h.purged
  counted := by
    rw [Nat.one_mul]
    exact h.counted

theorem Ready.withSink {r : Recorder} (h : p.Ready r) :
    p.Ready (r.withSink {}) where
  idle := ⟨h.idle.sound.withSink _, h.idle.barrier, h.idle.aborted, h.idle.empty⟩
  typeSet := h.typeSet
  statics := h.statics
  host := h.host
  sink := ⟨{}, rfl, fun _ => rfl, fun _ => rfl⟩

/-- **A chunk can be read**, and has all its checkpoints where that is asked. -/
def Readable (p : Plan) (all : Prop) (chunk : Bytes) : Prop :=
  (Entry.readAll chunk).damage = none ∧
    (all → (Entry.readAll chunk).items.countP (!·.header.flushpoint) = p.chunkCheckpoints)

theorem Readable.mono {all all' : Prop} {bytes : Bytes} (h : p.Readable all bytes)
    (hall : all' → all) : p.Readable all' bytes := ⟨h.1, fun ha => h.2 (hall ha)⟩

/-- **What became of a chunk**: its file has the bytes that were drained. -/
structure Outcome (p : Plan) (d : Disk) (D : Location) (all : Prop) (chunk : Nat)
    (c : ChunkOutcome) : Prop where
  path : c.path = p.chunkPath chunk
  drained : c.fileBytes = c.drained
  file : ∃ content, d.Holds p.out D (chunkName chunk) content ∧ content.length = c.fileBytes ∧
    p.Readable all content.bytes

/-- **A session is about to fill a chunk**, whose file is empty. -/
structure Opens (p : Plan) (D : Location) (chunk : Nat) (s : RecordingSession) : Prop where
  ready : p.Ready s.recorder
  empty : s.recorder.chunk = []
  file : s.file = .fresh p.out D (chunkName chunk)
  held : s.disk.Holds p.out D (chunkName chunk) .empty

/-- **A session has filled a chunk**, whose file is still empty. -/
structure Filled (p : Plan) (D : Location) (chunk : Nat) (gained : Bytes) (s : RecordingSession) :
    Prop where
  ready : p.Ready s.recorder
  taken : s.recorder.chunk = gained
  file : s.file = .fresh p.out D (chunkName chunk)
  held : s.disk.Holds p.out D (chunkName chunk) .empty

/-- **Some chunks were filled**, from a number on.  All but the last one are in their files, and no
other file of the directory has changed. -/
structure Records (p : Plan) (D : Location) (chunk : Nat) (s : RecordingSession)
    (rows : List ChunkOutcome) (gained : Bytes) (s' : RecordingSession) : Prop where
  outcomes : List.Forall₂ (p.Outcome s'.disk D
      (s'.recorder.stats.checkpointsDropped = s.recorder.stats.checkpointsDropped))
    (List.range' chunk rows.length) rows
  tally : p.Tally s.recorder s'.recorder (rows.length + 1)
    ((rows.map ChunkOutcome.fileBytes).sum + gained.length)
  filled : p.Filled D (chunk + rows.length) gained s'
  readable : p.Readable
    (s'.recorder.stats.checkpointsDropped = s.recorder.stats.checkpointsDropped) gained
  kept : ∀ name content, (∀ n, chunk ≤ n → name ≠ chunkName n) →
    s.disk.Holds p.out D name content → s'.disk.Holds p.out D name content

end Plan

namespace RecordingSession

variable {p : Plan} {D : Location} {chunk : Nat} {s : RecordingSession}

theorem answers_onRecorder {α : Type} {x : Action α} {post : α → Recorder → Prop}
    (h : Answers x s.recorder post) :
    Answers (onRecorder x) s fun a s' => post a s'.recorder ∧ s'.disk = s.disk ∧
      s'.file = s.file := by
  refine (Answers.zoom h).mono ?_
  rintro a _ ⟨r, rfl, hpost⟩
  exact ⟨hpost, rfl, rfl⟩

theorem answers_onDisk {α : Type} {x : DiskAction α} {post : α → Disk → Prop}
    (h : Answers x s.disk post) :
    Answers (onDisk x) s fun a s' => post a s'.disk ∧ s'.recorder = s.recorder ∧
      s'.file = s.file := by
  refine (Answers.zoom h).mono ?_
  rintro a _ ⟨d, rfl, hpost⟩
  exact ⟨hpost, rfl, rfl⟩

/-- **The chunk is filled.** -/
theorem answers_fill (h : p.Opens D chunk s) (hthreads : p.threads = 1)
    (hchunk : chunk < UInt64.size) (hcheckpoints : p.checkpoints < UInt64.size) :
    Answers (onRecorder (p.fillChunk chunk)) s fun n s' =>
      ∃ gained : Bytes, n = gained.length ∧ p.Records D chunk s [] gained s' := by
  refine (answers_onRecorder (h.ready.answers_fillChunk hthreads hchunk hcheckpoints)).mono ?_
  rintro n s' ⟨⟨gained, hlength, hfills⟩, hdisk, hfile⟩
  refine ⟨gained, hlength, ?_⟩
  exact
    { outcomes := .nil
      tally := by simpa using hfills.tally
      filled :=
        { ready := hfills.ready
          taken := by rw [hfills.chunk, h.empty, List.nil_append]
          file := hfile.trans h.file
          held := by rw [hdisk]; exact h.held }
      readable := ⟨hfills.damage, hfills.checkpoints⟩
      kept := fun name content _ hholds => by rwa [hdisk] }

theorem bytes_taken {old : Option Sink} {r : Recorder} {gained : Bytes} (hr : r.chunk = gained)
    (h : old.map Sink.content = r.sink.map Sink.content) :
    ((old.map Sink.taken).getD .empty).bytes = gained := by
  have hflat := Recorder.flatMap_content_eq h
  rw [← hr, Recorder.chunk, ← hflat]
  cases old with
  | none => rfl
  | some sink => simp [Sink.content]

/-- **The session goes on with the next chunk**, and the file of the last one has its bytes. -/
structure Switches (p : Plan) (D : Location) (chunk : Nat) (gained : Bytes)
    (s s' : RecordingSession) : Prop where
  opens : p.Opens D (chunk + 1) s'
  recorder : s'.recorder = s.recorder.withSink {}
  file : ∃ content, s'.disk.Holds p.out D (Plan.chunkName chunk) content ∧
    content.bytes = gained
  kept : ∀ name content, name ≠ Plan.chunkName chunk → name ≠ Plan.chunkName (chunk + 1) →
    s.disk.Holds p.out D name content → s'.disk.Holds p.out D name content

theorem answers_nextChunk {gained : Bytes} (h : p.Filled D chunk gained s)
    (hchunk : chunk + 1 < UInt64.size) :
    Answers (nextChunk (p.chunkPath (chunk + 1))) s fun n s' =>
      n = gained.length ∧ Switches p D chunk gained s s' := by
  have hne : Plan.chunkName chunk ≠ Plan.chunkName (chunk + 1) :=
    fun heq => absurd (Plan.chunkName_inj heq) (by omega)
  unfold nextChunk
  refine (answers_onDisk
    (ChunkFile.answers_create (Plan.plain_chunkName hchunk) p.out s.disk)).bind ?_
  rintro next s₁ ⟨⟨D', hbegins⟩, hrecorder₁, hfile₁⟩
  obtain rfl := hbegins.leads.unique h.held.leads
  refine (answers_onRecorder
    (.of_ends (s₁.recorder.ends_replaceSink {}) fun _ _ hreplace => hreplace)).bind ?_
  rintro old s₂ ⟨⟨hrecorder₂, hcontent⟩, hdisk₂, hfile₂⟩
  have htaken := bytes_taken (by rw [hrecorder₁, h.taken]) hcontent
  refine Answers.after (Fallible.runOn_get s₂) ?_
  -- The next file was made first, and that left the last one alone.
  have hheld : s₂.disk.Holds p.out D' (Plan.chunkName chunk) .empty := by
    rw [hdisk₂]
    exact h.held.kept hbegins.writes hne
  rw [hfile₂, hfile₁, h.file]
  refine (answers_onDisk
    (.of_ends (ends_finishFile hheld _) fun _ _ hfinish => hfinish.2)).bind ?_
  rintro _ s₃ ⟨hwrites, hrecorder₃, hfile₃⟩
  refine Answers.after (Fallible.runOn_modify _ s₃) (Answers.pure ?_)
  have hrecorder : s₃.recorder = s.recorder.withSink {} := by
    rw [hrecorder₃, hrecorder₂, hrecorder₁]
  have hlength := congrArg List.length htaken
  rw [Tape.length_bytes] at hlength
  refine ⟨hlength, ?_⟩
  exact
    { opens :=
        { ready := by rw [hrecorder]; exact h.ready.withSink
          empty := by rw [hrecorder]; rfl
          file := hbegins.fresh
          held := Disk.Holds.kept (hdisk₂ ▸ hbegins.holds) hwrites hne.symm }
      recorder := hrecorder
      file := ⟨_, hheld.rewritten hwrites, htaken⟩
      kept := fun name content hname hname' hholds =>
        Disk.Holds.kept (hdisk₂ ▸ hholds.kept hbegins.writes hname') hwrites hname }

/-- **The first chunk and those that follow it.** -/
theorem Switches.cons {s₁ s₂ s₃ : RecordingSession} {gained gained' : Bytes}
    {rest : List ChunkOutcome} (h : Switches p D chunk gained s₁ s₂)
    (hfirst : p.Records D chunk s [] gained s₁)
    (hrest : p.Records D (chunk + 1) s₂ rest gained' s₃) :
    p.Records D chunk s (⟨p.chunkPath chunk, gained.length, gained.length⟩ :: rest) gained' s₃ := by
  have hsame : s₂.recorder.stats.checkpointsDropped = s₁.recorder.stats.checkpointsDropped := by
    rw [h.recorder]
    rfl
  -- Drops are never uncounted: if there are none in the end there were none in either part.
  have hless := hfirst.tally.counted.sum.2
  have hless' := hrest.tally.counted.sum.2
  have hstep : p.Tally s₁.recorder s₂.recorder 0 0 := by
    rw [h.recorder]
    exact .withSink _ _
  have hfile : p.Outcome s₃.disk D
      (s₃.recorder.stats.checkpointsDropped = s.recorder.stats.checkpointsDropped) chunk
      ⟨p.chunkPath chunk, gained.length, gained.length⟩ := by
    obtain ⟨content, hholds, hbytes⟩ := h.file
    have hheld := hrest.kept (Plan.chunkName chunk) content
      (fun n hn heq => absurd (Plan.chunkName_inj heq) (by omega)) hholds
    have hread : p.Readable
        (s₃.recorder.stats.checkpointsDropped = s.recorder.stats.checkpointsDropped) gained :=
      hfirst.readable.mono fun hall => by omega
    rw [← hbytes] at hread ⊢
    exact ⟨by dsimp only, rfl, content, hheld, (Tape.length_bytes content).symm, hread⟩
  exact
    { outcomes := by
        rw [List.length_cons, List.range'_succ]
        refine .cons hfile (hrest.outcomes.imp fun n c hc => ⟨hc.path, hc.drained, ?_⟩)
        obtain ⟨content, hholds, hlength, hread⟩ := hc.file
        exact ⟨content, hholds, hlength, hread.mono fun hall => by omega⟩
      tally := by
        have htally := hfirst.tally.trans (hstep.trans hrest.tally)
        simpa [Nat.add_comm, Nat.add_left_comm] using htally
      filled := by
        have hfilled := hrest.filled
        rwa [Nat.add_assoc, Nat.add_comm 1] at hfilled
      readable := hrest.readable.mono fun hall => by omega
      kept := fun name content hname hholds => by
        refine hrest.kept name content (fun n hn => hname n (by omega)) ?_
        refine h.kept name content (hname chunk (Nat.le_refl _)) (hname _ (by omega)) ?_
        exact hfirst.kept name content hname hholds }

/-- **One chunk after the other is filled.** -/
theorem answers_runChunks (hthreads : p.threads = 1) (hcheckpoints : p.checkpoints < UInt64.size)
    {more : Nat} (h : p.Opens D chunk s) (hchunks : chunk + more < UInt64.size) :
    Answers (runChunks p chunk more) s fun a s' => a.1.length = more ∧
      ∃ gained : Bytes, a.2 = gained.length ∧ p.Records D chunk s a.1 gained s' := by
  induction more generalizing chunk s with
  | zero =>
    refine (answers_fill h hthreads hchunks hcheckpoints).bind ?_
    exact fun n s₁ hfill => Answers.pure ⟨rfl, hfill⟩
  | succ more ih =>
    unfold runChunks
    refine (answers_fill h hthreads (by omega) hcheckpoints).bind ?_
    rintro _ s₁ ⟨gained, rfl, hfirst⟩
    refine (answers_nextChunk hfirst.filled (by simp only [List.length_nil]; omega)).bind ?_
    rintro _ s₂ ⟨rfl, hswitch⟩
    refine (ih hswitch.opens (by simp only [List.length_nil]; omega)).bind ?_
    rintro ⟨rest, last⟩ s₃ ⟨hcount, gained', hlast, hrest⟩
    exact Answers.pure ⟨congrArg (· + 1) hcount, gained', hlast, hswitch.cons hfirst hrest⟩

end RecordingSession

/-! ## 3. Whole recordings -/

/-- **A recorder that ends** gives back the sink of its last chunk, with all that it took. -/
theorem Recorder.answers_destroy (r : Recorder) :
    Answers Recorder.destroy r fun last r' => last = r'.sink ∧ r'.chunk = r.chunk := by
  unfold Recorder.destroy
  refine (Answers.of_ends (Recorder.keeps_clear.ends r) fun _ _ hkept => hkept).bind ?_
  intro _ r₁ hkept
  have hsink : r₁.sink = r.sink := (congrArg Recorder.sink hkept :)
  refine (Answers.of_ends r₁.ends_flushOrThrow fun _ _ hflush => hflush).bind ?_
  rintro _ _ ⟨sink, rfl, hcontent⟩
  refine Answers.after (Fallible.runOn_get _) (Answers.pure ?_)
  exact ⟨rfl, (Recorder.flatMap_content_eq hcontent).trans (by rw [hsink]; rfl)⟩

namespace RecordingSession

variable {p : Plan} {D : Location} {s : RecordingSession}

theorem length_taken (r : Recorder) :
    (r.sink.map Sink.committed).getD 0 = r.chunk.length := by
  rw [Recorder.chunk]
  cases r.sink with
  | none => rfl
  | some sink => simp [Sink.committed, Sink.content]

/-- **What the session of a whole recording did**: it filled all chunks, and told what was the case
just before the recorder ended. -/
structure Carries (p : Plan) (D : Location) (s : RecordingSession) (rows : List ChunkOutcome)
    (gained : Bytes) (filled : RecordingSession) (recording : Recording) (s' : RecordingSession) :
    Prop where
  count : rows.length + 1 = p.chunks
  records : p.Records D 1 s rows gained filled
  chunks : recording.chunks = rows ++ [⟨p.chunkPath p.chunks, gained.length, gained.length⟩]
  epoch : recording.epoch = filled.recorder.epoch.current
  stats : recording.stats = filled.recorder.stats
  taken : s'.recorder.chunk = gained
  disk : s'.disk = filled.disk
  file : s'.file = filled.file

/-- **All chunks of a plan are filled**, the last one too, whose file is finished only when the
recorder has ended. -/
theorem answers_run (hthreads : p.threads = 1) (hcheckpoints : p.checkpoints < UInt64.size)
    (hchunks : 0 < p.chunks) (hsize : p.chunks < UInt64.size) (hsink : s.recorder.sink = none)
    (h : p.Opens D 1 { s with recorder := s.recorder.withSink {} }) :
    Answers (run p) s fun recording s' => ∃ rows gained filled,
      Carries p D { s with recorder := s.recorder.withSink {} } rows gained filled recording
        s' := by
  have hinstall : Fallible.runOn (onRecorder (Recorder.installSink {})) s =
      (.ok (), { s with recorder := s.recorder.withSink {} }) := by
    simp [onRecorder, Recorder.installSink, hsink, Recorder.withSink]
  unfold run
  refine Answers.after hinstall (Answers.after (Fallible.runOn_get _) ?_)
  refine (Answers.settle (Fault.reserve s.recorder.host.memory p.chunkRoom) _).bind ?_
  rintro _ _ ⟨rfl, -⟩
  refine (answers_runChunks hthreads hcheckpoints h (by omega)).bind ?_
  rintro ⟨rows, _⟩ filled ⟨hcount, gained, rfl, hrecords⟩
  refine Answers.after (Fallible.runOn_get filled) ?_
  refine (answers_onRecorder filled.recorder.answers_destroy).bind ?_
  rintro _ s' ⟨⟨rfl, hchunk⟩, hdisk, hfile⟩
  have htaken : s'.recorder.chunk = gained := hchunk.trans hrecords.filled.taken
  refine Answers.pure ⟨rows, gained, filled, ?_⟩
  exact
    { count := by dsimp only at hcount; omega
      records := hrecords
      chunks := by rw [length_taken, htaken]
      epoch := rfl
      stats := rfl
      taken := htaken
      disk := hdisk
      file := hfile }

end RecordingSession

namespace Plan

variable {p : Plan}

/-- **A new recorder is ready** for the first chunk once it has a sink. -/
theorem ready_of_create {options : RecorderOptions} {memory : Memory} {r : Recorder}
    (h : Recorder.create options (p.host memory) = .ok r) (now : UInt64) :
    p.Ready ((r.setClock now).withSink {}) ∧ (r.setClock now).sink = none ∧
      (r.setClock now).stats = { buffersAllocated := options.preallocated } ∧
      (r.setClock now).epoch = {} := by
  obtain ⟨hsound, hpooled, hsink, hstats⟩ := Recorder.sound_create h
  have hfields : r.epoch = {} ∧ r.aborted = false ∧ r.typeSet = [] ∧
      r.statics = StaticConstants.builtin ∧ r.host = p.host memory := by
    unfold Recorder.create at h
    split at h
    · cases h
    · split at h
      · cases h
      · cases h
        exact ⟨rfl, rfl, rfl, rfl, rfl⟩
  obtain ⟨hepoch, haborted, htypes, hstatics, hhost⟩ := hfields
  have hclock : (r.setClock now).Sound [] (r.setClock now).epoch.current :=
    hsound.recorder.alike (fun kind => by cases kind <;> rfl) rfl rfl rfl
  have hidle : ((r.setClock now).withSink {}).Idle :=
    { sound := hclock.withSink {}
      barrier := (congrArg EpochController.barrier hepoch :)
      aborted := haborted
      empty := fun b hb => by
        have hnone : ((r.setClock now).withSink {}).pooled = [] := hpooled
        rw [hnone] at hb
        cases hb }
  exact ⟨⟨hidle, htypes, hstatics, ⟨memory, hhost⟩, {}, rfl, fun _ => rfl, fun _ => rfl⟩, hsink,
    hstats, hepoch⟩

/-- **The report of a recording agrees with itself and with the disk.**  Each chunk has its own
file, with just the bytes that its rotation drained; all counters are right; and an independent
reader finds in each file, without damage, as many checkpoints as were written, unless one was
dropped. -/
structure Accounts (p : Plan) (recording : Recording) (disk : Disk) : Prop where
  paths : recording.chunks.map ChunkOutcome.path = (List.range' 1 p.chunks).map p.chunkPath
  drained : ∀ c ∈ recording.chunks, c.fileBytes = c.drained
  written : (recording.chunks.map ChunkOutcome.fileBytes).sum = recording.stats.bytesWritten
  discarded : recording.stats.bytesDiscarded = 0
  rotations : recording.stats.rotations = p.chunks
  epoch : recording.epoch.value = p.chunks % 2
  purged : recording.stats.typeEntriesPurged = 2 * p.chunks
  checkpoints : recording.stats.checkpointsWritten + recording.stats.checkpointsDropped =
    p.chunks * (p.checkpoints + 2 * p.virtualThreads + 4)
  files : ∀ c ∈ recording.chunks, ∃ content,
    Fallible.runOn (Disk.read c.path) disk = (.ok content, disk) ∧ content.length = c.fileBytes ∧
      (Entry.readAll content.bytes).damage = none ∧
      (recording.stats.checkpointsDropped = 0 →
        (Entry.readAll content.bytes).items.countP (!·.header.flushpoint) =
          p.checkpoints + 2 * p.virtualThreads + 4)

theorem Outcome.reads {d : Disk} {D : Location} {all : Prop} {chunk : Nat} {c : ChunkOutcome}
    (h : p.Outcome d D all chunk c) : ∃ content,
    Fallible.runOn (Disk.read c.path) d = (.ok content, d) ∧ content.length = c.fileBytes ∧
      p.Readable all content.bytes := by
  obtain ⟨content, hholds, hlength, hread⟩ := h.file
  refine ⟨content, ?_, hlength, hread⟩
  rw [h.path]
  exact hholds.read_eq

theorem Outcome.kept {d d' : Disk} {D : Location} {all : Prop} {chunk last : Nat}
    {c : ChunkOutcome} {content : Tape} (h : p.Outcome d D all chunk c)
    (hw : d.Writes D (chunkName last) content d') (hne : chunk ≠ last) :
    p.Outcome d' D all chunk c := by
  obtain ⟨content, hholds, hlength, hread⟩ := h.file
  have hname : chunkName chunk ≠ chunkName last := fun heq => hne (chunkName_inj heq)
  exact ⟨h.path, h.drained, content, hholds.kept hw hname, hlength, hread⟩

end Plan

namespace RecordingSession

namespace Carries

variable {p : Plan} {D : Location} {s filled s' : RecordingSession} {rows : List ChunkOutcome}
  {gained : Bytes} {recording : Recording} {content : Tape} {d : Disk}

/-- **All chunks have become what they should** once the last one is in its file, too. -/
theorem outcomes (h : Carries p D s rows gained filled recording s')
    (hw : filled.disk.Writes D (Plan.chunkName p.chunks) content d)
    (hcontent : content.bytes = gained) :
    List.Forall₂ (p.Outcome d D
        (recording.stats.checkpointsDropped = s.recorder.stats.checkpointsDropped))
      (List.range' 1 p.chunks) recording.chunks := by
  have hcount : p.chunks = rows.length + 1 := h.count.symm
  have hlast : 1 + rows.length = p.chunks := by omega
  -- The last file has a name of its own, so writing it leaves all others alone.
  have hbelow : ∀ n ∈ List.range' 1 rows.length, n ≠ p.chunks := by
    intro n hn
    have hn := List.mem_range'_1.1 hn
    omega
  have hearlier : List.Forall₂ (p.Outcome d D
        (recording.stats.checkpointsDropped = s.recorder.stats.checkpointsDropped))
      (List.range' 1 rows.length) rows := by
    have hboth := (List.forall₂_and_left _ _).2 ⟨hbelow, h.records.outcomes⟩
    rw [h.stats]
    exact hboth.imp fun n c hc => hc.2.kept hw hc.1
  have hheld := h.records.filled.held
  rw [hlast] at hheld
  have hread := h.records.readable
  rw [← h.stats, ← hcontent] at hread
  have hfile : p.Outcome d D
      (recording.stats.checkpointsDropped = s.recorder.stats.checkpointsDropped) p.chunks
      ⟨p.chunkPath p.chunks, gained.length, gained.length⟩ := by
    rw [← hcontent]
    exact ⟨by dsimp only, rfl, content, hheld.rewritten hw, (Tape.length_bytes content).symm, hread⟩
  have hrange : List.range' 1 p.chunks = List.range' 1 rows.length ++ [p.chunks] := by
    rw [hcount, List.range'_concat, Nat.one_mul, Nat.add_comm 1]
  rw [hrange, h.chunks]
  exact List.rel_append hearlier (.cons hfile .nil)

/-- **The whole report is right**, if nothing was counted before. -/
theorem report (h : Carries p D s rows gained filled recording s')
    (hw : filled.disk.Writes D (Plan.chunkName p.chunks) content d)
    (hcontent : content.bytes = gained) {allocated : Nat}
    (hstats : s.recorder.stats = { buffersAllocated := allocated })
    (hepoch : s.recorder.epoch.current = .zero) : p.Accounts recording d := by
  have houtcomes := h.outcomes hw hcontent
  have hbecame : ∀ c ∈ recording.chunks, ∃ n, p.Outcome d D
      (recording.stats.checkpointsDropped = s.recorder.stats.checkpointsDropped) n c := by
    intro c hc
    obtain ⟨i, hi, rfl⟩ := List.getElem_of_mem hc
    exact ⟨_, houtcomes.get (houtcomes.length_eq.symm ▸ hi) hi⟩
  have hpaths : List.Forall₂ Eq ((List.range' 1 p.chunks).map p.chunkPath)
      (recording.chunks.map ChunkOutcome.path) :=
    List.forall₂_map_left_iff.2 (List.forall₂_map_right_iff.2
      (houtcomes.imp fun n c hc => hc.path.symm))
  rw [List.forall₂_eq_eq_eq] at hpaths
  have htally := h.records.tally
  have hcounted := htally.counted.sum.1
  rw [h.count] at htally hcounted
  have hbytes : (recording.chunks.map ChunkOutcome.fileBytes).sum =
      (rows.map ChunkOutcome.fileBytes).sum + gained.length := by
    rw [h.chunks]
    simp
  exact
    { paths := hpaths.symm
      drained := fun c hc => (hbecame c hc).elim fun n hn => hn.drained
      written := by
        rw [hbytes, h.stats, htally.written, hstats]
        exact (Nat.zero_add _).symm
      discarded := by rw [h.stats, htally.discarded, hstats]
      rotations := by
        rw [h.stats, htally.rotations, hstats]
        exact Nat.zero_add _
      epoch := by
        rw [h.epoch, htally.epoch, hepoch]
        exact congrArg (· % 2) (Nat.zero_add _)
      purged := by
        rw [h.stats, htally.purged, hstats]
        exact Nat.zero_add _
      checkpoints := by
        rw [h.stats, hcounted, hstats]
        exact Nat.zero_add _
      files := fun c hc => by
        obtain ⟨n, hn⟩ := hbecame c hc
        obtain ⟨bytes, hread, hlength, hdamage, hall⟩ := hn.reads
        exact ⟨bytes, hread, hlength, hdamage, fun hnone => hall (by rw [hnone, hstats])⟩ }

end Carries

/-- **The session ends** with what its last sink took in the file of the last chunk. -/
theorem answers_finish {p : Plan} {D : Location} {s s' : RecordingSession}
    {answer : Except Fault Recording} {allocated : Nat}
    (h : ∀ recording, answer = .ok recording → ∃ rows gained filled,
      Carries p D s rows gained filled recording s')
    (hstats : s.recorder.stats = { buffersAllocated := allocated })
    (hepoch : s.recorder.epoch.current = .zero) :
    Answers (do
      finishFile s'.file ((s'.recorder.sink.map Sink.taken).getD .empty)
      Fallible.settle answer) s'.disk fun recording d => p.Accounts recording d := by
  cases answer with
  | error fault => exact (Answers.any _ s'.disk).bind fun _ d _ => Answers.throw fault
  | ok recording =>
    obtain ⟨rows, gained, filled, hcarries⟩ := h recording rfl
    have hlast : 1 + rows.length = p.chunks := by rw [Nat.add_comm, hcarries.count]
    have hheld := hcarries.records.filled.held
    rw [hlast, ← hcarries.disk] at hheld
    have hfile := hcarries.file.trans hcarries.records.filled.file
    rw [hlast] at hfile
    rw [hfile]
    refine (Answers.of_ends (ends_finishFile hheld _) fun _ _ hfinish => hfinish.2).bind ?_
    refine fun _ d hwrites => Answers.pure ?_
    rw [hcarries.disk] at hwrites
    exact hcarries.report hwrites (bytes_taken hcarries.taken rfl) hstats hepoch

end RecordingSession

/-- **The report of a recording with a single worker is right**, whenever there is one: it agrees
with itself, with the counters and with the files on the disk.

The options of the pools may be any that pass their checks, so checkpoints may be dropped for want
of buffers; they are counted too, and then the files may have fewer.  A recording that meets a fault
makes no report.  That words do not overflow is a matter of the numbers that the plan asks for, and
these are the only bounds. -/
theorem Plan.accounts {p : Plan} {memory : Memory} {now : UInt64} {recording : Recording}
    {d d' : Disk}
    (hthreads : p.threads = 1) (hchunks : p.chunks < UInt32.size)
    (hcheckpoints : p.checkpoints < UInt64.size)
    (h : Fallible.runOn (p.record memory now) d = (.ok recording, d')) :
    p.Accounts recording d' := by
  have hall : Answers (p.record memory now) d fun recording d' => p.Accounts recording d' := by
    unfold record
    cases hfault : p.fault? with
    | some fault => exact Answers.throw fault
    | none =>
      have hsome : 0 < p.chunks := by
        refine Nat.pos_of_ne_zero fun hnone => ?_
        simp [fault?, hthreads, hnone] at hfault
      refine (Answers.any p.options d).bind fun options d₁ _ => ?_
      refine (Answers.any (Disk.createDirectory p.out) d₁).bind fun _ d₂ _ => ?_
      refine (Answers.any (Fallible.settle (Fault.reserve memory p.threadRoom)) d₂).bind
        fun _ d₃ _ => ?_
      refine (Answers.settle (Recorder.create options (p.host memory)) d₃).bind ?_
      rintro recorder _ ⟨rfl, hcreate⟩
      obtain ⟨hready, hsink, hstats, hepoch⟩ := ready_of_create hcreate now
      refine (ChunkFile.answers_create (plain_chunkName (by decide)) p.out _).bind ?_
      rintro file d₄ ⟨D, hbegins⟩
      refine Answers.after (Fallible.runOn_get d₄) ?_
      have hopens : p.Opens D 1 ⟨d₄, (recorder.setClock now).withSink {}, file⟩ :=
        ⟨hready, rfl, hbegins.fresh, hbegins.holds⟩
      have hrun := RecordingSession.answers_run (s := ⟨d₄, recorder.setClock now, file⟩)
        hthreads hcheckpoints hsome (Nat.lt_trans hchunks (by decide)) hsink hopens
      rcases heq : Fallible.runOn (RecordingSession.run p) ⟨d₄, recorder.setClock now, file⟩
        with ⟨answer, s'⟩
      refine Answers.after (Fallible.runOn_set s'.disk d₄) ?_
      exact RecordingSession.answers_finish (Ends.run_eq hrun heq) hstats
        (congrArg EpochController.current hepoch)
  exact hall.run_eq h

/-- A recording of two chunks on an empty disk drops nothing, so both files have all checkpoints. -/
theorem Plan.accounts_two_chunks :
    let p : Plan := { out := "d", threads := 1, virtualThreads := 1, checkpoints := 1, chunks := 2,
                      payload := 2 }
    ∃ recording disk, Fallible.runOn (p.record .unbounded 0) {} = (.ok recording, disk) ∧
      recording.stats.checkpointsDropped = 0 ∧ p.Accounts recording disk := by
  intro p
  have hnone : ((Fallible.runOn (p.record .unbounded 0) {}).1.toOption.map fun recording =>
      recording.stats.checkpointsDropped) = some 0 := by decide +kernel
  rcases hrun : Fallible.runOn (p.record .unbounded 0) {} with ⟨answer, disk⟩
  rw [hrun] at hnone
  cases answer with
  | error fault => cases hnone
  | ok recording =>
    exact ⟨recording, disk, rfl, Option.some.inj hnone,
      Plan.accounts rfl (by decide) (by decide) hrun⟩

end TraceRecorder
