/-
# Entries are recorded in the order in which they were committed

A history goes along with a run: the commits of all checkpoints, in order, and what the bytes of the
chunks are made of.  Each pass of a drain adds the entries of the global pool, then those of carrier
threads, then those of virtual threads.

As long as nothing is discarded and no sink refuses a call, the history is cut into parts, one for
each pass and one that still waits (`Tells`).  A pass has the commits of its part, lane by lane in
order, and those of one checkpoint one behind the other (`Passed`).  The checkpoints of later parts
begin after those of earlier ones, so no checkpoint is torn apart by a drain.

Two writers of one carrier thread may be open at once; such a thread is `crossed`, and only the
pieces of each of its checkpoints are known to be in order.
-/
import TraceRecorder.Proofs.Run.Crew
import TraceRecorder.Proofs.Run.Steps

namespace TraceRecorder

open Fallible (Ends)

/-! ## 1. Histories -/

/-- **What the bytes of chunks are made of**: what a new sink brought, and what passes of drains
sent. -/
inductive Event where
  | brought (content : Bytes)
  | pass (d : Detached)

namespace Event

def bytes : Event → Bytes
  | brought content => content
  | pass d => d.sections.flatten

def pass? : Event → Option Detached
  | brought _ => none
  | pass d => some d

end Event

/-- Checkpoints that are written one after the other have numbers one after the other. -/
def Emission.commits (begun : Nat) : List Emission → List Commit
  | [] => []
  | emission :: rest =>
    Commit.all emission.lane begun emission.entries ++ commits (begun + 1) rest

/-- **What was committed and recorded so far.** -/
structure History where
  /-- The commits of all checkpoints, in order. -/
  log : List Commit := []
  /-- What was recorded, in order. -/
  events : List Event := []
  /-- How many checkpoints began. -/
  begun : Nat := 0
  /-- The numbers of the checkpoints of the open writers. -/
  numbers : List Nat := []
  /-- The carrier threads on which two checkpoints overlapped. -/
  crossed : List ThreadId := []

def History.passes (h : History) : List Detached := h.events.filterMap Event.pass?

/-- A writer is open that writes into the pool of carrier threads from a thread. -/
def Run.occupied (run : Run) (thread : ThreadId) : Bool :=
  run.writers.any fun w => w.lane = .carrier thread

namespace Move

/-- **The checkpoints that the recorder itself writes in a move.** -/
def emissions (m : Move) (run : Run) : List Emission :=
  let r := run.recorder
  match m with
  | .writeStatics thread => [⟨.global, (r.staticEntries thread).entries⟩]
  | .writeThreads thread => [⟨.global, (r.threadEntries thread).entries⟩]
  | .writeStaticsAndThreads => r.staticAndThreadEmissions
  | .writeTypeSet => [⟨.global, (r.typeSetEntries false).entries⟩]
  | .writeCheckpoint thread id mounted => [r.checkpointEmission thread id mounted]
  | .writeSimplified id =>
    [⟨.virtual, (r.relationEntries id .virtualThreadLocal false
      [ThreadInfo.simplified id]).entries⟩]
  | .flushTypeSet => [⟨.global, r.waitingEntries.entries⟩]
  | .rotate => r.rotationEmissions
  | _ => []

/-- The first half of a drain. -/
def first? : Move → Option (Action Detached)
  | .write => some Recorder.detachForWrite
  | .flushTypeSet => some Recorder.detachForFlush
  | .rotate => some Recorder.detachForRotation
  | _ => none

/-- **What a move takes out of the pools** in order to send it. -/
def pass? (m : Move) (run : Run) : Option Detached :=
  m.first?.bind fun first => (Fallible.runOn first run.recorder).1.toOption

/-- The carrier thread on which a checkpoint begins while another one is not at its end. -/
def crossing (m : Move) (run : Run) : List ThreadId :=
  match m with
  | .start thread .threadLocal => if run.occupied thread then [thread] else []
  | .writeCheckpoint thread _ none => if run.occupied thread.id then [thread.id] else []
  | _ => []

/-- **Nothing is discarded in the move**, and no sink refuses a call. -/
def delivers (m : Move) (run : Run) : Bool :=
  match m with
  | .clear => false
  | _ => (run.fault? m).all fun fault => match fault with
    | .sink _ => false
    | _ => true

theorem fault_ne_sink {m : Move} {run : Run} (hd : m.delivers run = true) (report : Report) :
    run.fault? m ≠ some (.sink report) := by
  intro hf
  cases m <;> simp [delivers, hf] at hd

end Move

namespace History

/-- What an open writer commits. -/
def commits (h : History) (run : Run) (writer : Nat) (piece? : Writer → Option Bytes) :
    List Commit :=
  match run.writers[writer]?, h.numbers[writer]? with
  | some w, some number => Commit.all w.lane number (piece? w).toList
  | _, _ => []

/-- **The history after one more move.** -/
def next (h : History) (run : Run) (m : Move) : History :=
  let clock := run.recorder.clock
  match m with
  | .start .. =>
    { h with
      begun := h.begun + 1
      numbers := h.numbers ++ [h.begun]
      crossed := h.crossed ++ m.crossing run }
  | .append writer segment =>
    { h with log := h.log ++ h.commits run writer (·.cutOff? segment clock) }
  | .finish writer =>
    { h with
      log := h.log ++ h.commits run writer (·.lastPiece? clock)
      numbers := h.numbers.eraseIdx writer }
  | .abandon writer => { h with numbers := h.numbers.eraseIdx writer }
  | .installSink sink | .replaceSink sink =>
    match run.fault? m with
    | none => { h with events := h.events ++ [.brought sink.content] }
    | some _ => h
  | _ =>
    { h with
      log := h.log ++ Emission.commits h.begun (m.emissions run)
      events := h.events ++ (m.pass? run).toList.map Event.pass
      begun := h.begun + (m.emissions run).length
      crossed := h.crossed ++ m.crossing run }

end History

namespace Run

/-- **A run and its history**, as long as nothing is discarded and no sink refuses a call. -/
inductive Chronicle (options : RecorderOptions) : Run → History → Prop where
  | create {host : Host} {r : Recorder} (h : Recorder.create options host = .ok r) :
      Chronicle options { recorder := r } {}
  | step {run : Run} {h : History} (c : Chronicle options run h) (m : Move) (hm : m.admitted run)
      (hd : m.delivers run = true) : Chronicle options (run.step m) (h.next run m)

end Run

/-! ## 2. What waits for the next pass -/

/-- The checkpoints of some commits began before those of others. -/
def Before (done waiting : List Commit) : Prop :=
  ∀ c ∈ done, ∀ c' ∈ waiting, c.checkpoint < c'.checkpoint

/-- **A pass has the commits of its part of the log**: lane by lane in order, and those of one
checkpoint one behind the other. -/
structure Passed (crossed : List ThreadId) (d : Detached) (part : List Commit) : Prop where
  order : ∀ ℓ, Plain crossed ℓ → d.on ℓ = Commit.on ℓ part
  pieces : ∀ c ∈ part, (Commit.pieces c.checkpoint part).Sublist (d.on c.lane)

/-- **The commits that wait for the next pass**, after those that are done. -/
structure Awaits (r : Recorder) (crew : Crew) (begun : Nat) (crossed : List ThreadId)
    (done waiting : List Commit) : Prop where
  numbered : Numbered crew begun (done ++ waiting)
  inOrder : InOrder r crew crossed waiting
  pieced : Pieced r crew waiting
  before : Before done waiting
  ahead : ∀ c ∈ done, ∀ m ∈ crew, c.checkpoint < m.2

variable {r r' : Recorder} {crew pre post : Crew} {begun a : Nat} {crossed crossed' : List ThreadId}
  {done waiting : List Commit} {w w' : Writer} {ℓ : Lane} {l : Line}

theorem Passed.mono {d : Detached} {part : List Commit} (h : Passed crossed d part)
    (hc : crossed ⊆ crossed') : Passed crossed' d part where
  order ℓ hp := h.order ℓ fun t ht hin => hp t ht (hc hin)
  pieces := h.pieces

theorem Passed.flatMap_on {ds : List Detached} {parts : List (List Commit)}
    (h : List.Forall₂ (Passed crossed) ds parts) (hp : Plain crossed ℓ) :
    Commit.on ℓ parts.flatten = ds.flatMap (·.on ℓ) := by
  induction h with
  | nil => rfl
  | cons hd _ ih => rw [List.flatten_cons, Commit.on_append, List.flatMap_cons, hd.order ℓ hp, ih]

namespace Awaits

theorem mono (h : Awaits r crew begun crossed done waiting) (hc : crossed ⊆ crossed') :
    Awaits r crew begun crossed' done waiting :=
  { h with inOrder := h.inOrder.mono hc }

theorem yield (h : Awaits r crew begun crossed done waiting) (hl : r.Shifts ℓ l r')
    (hqueue : (r.line ℓ).queue <+: l.queue) (hall : l.all = (r.line ℓ).all) :
    Awaits r' crew begun crossed done waiting := by
  have hall : l.all = (r.line ℓ).all ++ [] := by rw [hall, List.append_nil]
  have horder := h.inOrder.emit (a := begun) hl hqueue hall (.inl rfl)
  have hpieced := h.pieced.emit h.numbered (List.subset_append_right _ _) hl hqueue hall
  have hnone : waiting ++ Commit.all ℓ begun [] = waiting := List.append_nil _
  rw [hnone] at horder hpieced
  exact { h with inOrder := horder, pieced := hpieced }

theorem alike (h : Awaits r crew begun crossed done waiting) (hv : r'.visible = r.visible) :
    Awaits r' crew begun crossed done waiting :=
  h.yield (Recorder.Shifts.of_visible_eq hv .global) (List.prefix_refl _) rfl

/-- **A writer begins**, and its checkpoint gets the next number.  What it finds in its buffer waits
already.  A carrier lane on which another checkpoint is open has to be crossed, since from then on
the entries of the two may take turns there. -/
theorem start (h : Awaits r crew begun crossed done waiting) (hl : r.Shifts w.lane l r')
    (hfree : ∀ t, w.lane = .carrier t → t ∉ crossed → ∀ m ∈ crew, m.1.lane ≠ w.lane)
    (hw : (w.Gone ∧ l.all = (r.line w.lane).all ∧ (r.line w.lane).queue <+: l.queue) ∨
      (w.dropped = false ∧ (r.line w.lane).Begins l w.held)) :
    Awaits r' (crew ++ [(w, begun)]) (begun + 1) crossed done waiting where
  numbered := h.numbered.start w
  inOrder := h.inOrder.start hl hfree (hw.imp (fun ⟨hgone, hall, _⟩ => ⟨hgone, hall⟩) id)
  pieced := h.pieced.start hl
    (fun c hc => Nat.ne_of_lt (h.numbered.numbered c (List.mem_append_right _ hc))) hw
  before := h.before
  ahead c hc m hm := by
    rcases List.mem_append.1 hm with hm | hm
    · exact h.ahead c hc m hm
    · rw [List.mem_singleton.1 hm]
      exact h.numbered.numbered c (List.mem_append_left _ hc)

/-- **A writer goes on, or is gone.**  The entries that are cut off meanwhile are the next commits
of its checkpoint: they wait behind all others, and their lane holds what the writer holds then. -/
theorem turn (h : Awaits r (pre ++ (w, a) :: post) begun crossed done waiting)
    (hl : r.Shifts w.lane l r') (hlane : w'.lane = w.lane) {cut : List Bytes}
    (hw : w.Turns cut (r.line w.lane) w' l) :
    Awaits r' (pre ++ (w', a) :: post) begun crossed done
      (waiting ++ Commit.all w.lane a cut) where
  numbered := by
    rw [← List.append_assoc]
    exact (h.numbered.commit_own cut).turn hlane
  inOrder := h.inOrder.turn hl hlane hw
  pieced := h.pieced.turn h.numbered (List.subset_append_right _ _) hl hlane hw
  before c hc c' hc' := by
    rcases List.mem_append.1 hc' with hc' | hc'
    · exact h.before c hc c' hc'
    · rw [(Commit.mem_all.1 hc').2.1]
      exact h.ahead c hc (w, a) (by simp)
  ahead c hc m hm := by
    rcases List.mem_append.1 hm with hm | hm
    · exact h.ahead c hc m (by simp [hm])
    · rcases List.mem_cons.1 hm with rfl | hm
      · exact h.ahead c hc (w, a) (by simp)
      · exact h.ahead c hc m (by simp [hm])

theorem leave (h : Awaits r (pre ++ (w, a) :: post) begun crossed done waiting) (hw : w.Gone) :
    Awaits r (pre ++ post) begun crossed done waiting where
  numbered := h.numbered.leave
  inOrder := h.inOrder.leave (Writer.held_of_buffer_none hw.buffer)
  pieced := h.pieced.leave (Writer.held_of_buffer_none hw.buffer)
  before := h.before
  ahead c hc m hm := by
    refine h.ahead c hc m ?_
    rcases List.mem_append.1 hm with hm | hm <;> simp [hm]

/-- **The recorder writes checkpoints of its own**, one after the other.  Each of them has a number
of its own, and its entries wait behind all that waits so far.  Where a writer is open its lane has
to be crossed. -/
theorem emits {emissions : List Emission} (h : Awaits r crew begun crossed done waiting)
    (hr : r.Emits emissions r') (hfree : ∀ emission ∈ emissions, ∀ t,
      emission.lane = .carrier t → t ∉ crossed → ∀ m ∈ crew, m.1.lane ≠ emission.lane) :
    Awaits r' crew (begun + emissions.length) crossed done
      (waiting ++ Emission.commits begun emissions) := by
  induction hr generalizing begun waiting with
  | done hv =>
    rw [Emission.commits, List.append_nil]
    exact h.alike hv
  | @next r r₁ r' emission rest l hl hqueue hall hrest ih =>
    have hnext : Awaits r₁ crew (begun + 1) crossed done
        (waiting ++ Commit.all emission.lane begun emission.entries) :=
      { numbered := by
          rw [← List.append_assoc]
          exact h.numbered.emit _ _
        inOrder := h.inOrder.emit hl hqueue hall (.inr (hfree emission List.mem_cons_self))
        pieced := h.pieced.emit h.numbered (List.subset_append_right _ _) hl hqueue hall
        before := fun c hc c' hc' => by
          rcases List.mem_append.1 hc' with hc' | hc'
          · exact h.before c hc c' hc'
          · rw [(Commit.mem_all.1 hc').2.1]
            exact h.numbered.numbered c (List.mem_append_left _ hc)
        ahead := h.ahead }
    have hall := ih hnext fun emission he => hfree emission (List.mem_cons_of_mem _ he)
    rw [List.length_cons, Emission.commits, ← List.append_assoc, Nat.add_comm rest.length,
      ← Nat.add_assoc]
    exact hall

theorem empty (hn : Numbered [] begun done) (hr : ∀ ℓ, r.line ℓ = ⟨[], []⟩) :
    Awaits r [] begun crossed done [] where
  numbered := by rwa [List.append_nil]
  inOrder :=
    { idle := fun m hm => by cases hm
      single := fun _ _ => Nat.zero_le _
      kept := fun m hm => by cases hm
      order := fun ℓ _ => by
        rw [hr]
        rfl }
  pieced := ⟨fun c hc => (by cases hc), fun m hm => (by cases hm)⟩
  before c hc c' hc' := by cases hc'
  ahead c hc m hm := by cases hm

/-- **A pass takes all that waits**, and nothing waits after it.  Passes are made while no writer is
open, so all that is on the lanes is in their queues; and what was detached has each lane in order.
-/
theorem pass {d : Detached} (h : Awaits r [] begun crossed done waiting)
    (hd : ∀ ℓ, d.on ℓ = (r.line ℓ).all) (hr : ∀ ℓ, r'.line ℓ = ⟨[], []⟩) :
    Passed crossed d waiting ∧ Awaits r' [] begun crossed (done ++ waiting) [] := by
  refine ⟨⟨fun ℓ hp => ?_, fun c hc => ?_⟩, ?_⟩
  · rw [hd, h.inOrder.order ℓ hp]
    exact (List.append_nil _).symm
  · obtain ⟨last, hlast | hlast, hpieces⟩ := h.pieced.placed c hc
    · rw [hd]
      rwa [hlast] at hpieces
    · cases hlast
  · exact empty h.numbered hr

end Awaits

/-! ## 3. The history tells what happened -/

namespace Run

/-- **The log is cut into parts**, one for each pass and one that waits. -/
structure Tells (run : Run) (h : History) (parts : List (List Commit)) (waiting : List Commit) :
    Prop where
  log : h.log = parts.flatten ++ waiting
  apart : parts.Pairwise Before
  passed : List.Forall₂ (Passed h.crossed) h.passes parts
  recorded : run.recorded = h.events.flatMap Event.bytes
  numbers : h.numbers.length = run.writers.length
  awaits : Awaits run.recorder (run.writers.zip h.numbers) h.begun h.crossed parts.flatten waiting

variable {options : RecorderOptions} {run : Run} {h : History} {parts : List (List Commit)}

/-- An open writer among the others, with their numbers. -/
theorem zip_eq {ws : List Writer} {numbers : List Nat} (hl : numbers.length = ws.length)
    {i : Nat} (hw : ws[i]? = some w) :
    ∃ pre post a, numbers[i]? = some a ∧ ws.zip numbers = pre ++ (w, a) :: post ∧
      (∀ w', (ws.set i w').zip numbers = pre ++ (w', a) :: post) ∧
      (ws.eraseIdx i).zip (numbers.eraseIdx i) = pre ++ post := by
  induction ws generalizing i numbers with
  | nil => cases hw
  | cons first rest ih =>
    cases numbers with
    | nil => cases hl
    | cons n numbers =>
      cases i with
      | zero =>
        obtain rfl := Option.some.inj hw
        exact ⟨[], rest.zip numbers, n, rfl, rfl, fun _ => rfl, rfl⟩
      | succ i =>
        obtain ⟨pre, post, a, ha, hzip, hset, herase⟩ := ih (Nat.succ.inj hl) hw
        refine ⟨(first, n) :: pre, post, a, ha, ?_, fun w' => ?_, ?_⟩
        · exact congrArg ((first, n) :: ·) hzip
        · exact congrArg ((first, n) :: ·) (hset w')
        · exact congrArg ((first, n) :: ·) herase

theorem lane_ne_of_not_occupied {thread : ThreadId} (hb : run.occupied thread = false)
    (numbers : List Nat) : ∀ m ∈ run.writers.zip numbers, m.1.lane ≠ .carrier thread := by
  intro m hm hlane
  have hmem : m.1 ∈ run.writers := (List.of_mem_zip (a := m.1) (b := m.2) hm).1
  rw [occupied, List.any_eq_false] at hb
  exact hb m.1 hmem (decide_eq_true hlane)

namespace Tells

theorem still (ht : run.Tells h parts waiting) {run' : Run}
    (ha : Awaits run'.recorder (run.writers.zip h.numbers) h.begun h.crossed parts.flatten waiting)
    (hw : run'.writers = run.writers) (hr : run'.recorded = run.recorded) :
    run'.Tells h parts waiting :=
  { ht with
    recorded := hr.trans ht.recorded
    numbers := by rw [hw, ht.numbers]
    awaits := by rwa [hw] }

/-- More is recorded that no drain has sent. -/
theorem bring (ht : run.Tells h parts waiting) {run' : Run} {content : Bytes}
    (hv : run'.recorder.visible = run.recorder.visible) (hw : run'.writers = run.writers)
    (hr : run'.recorded = run.recorded ++ content) :
    run'.Tells { h with events := h.events ++ [.brought content] } parts waiting where
  log := ht.log
  apart := ht.apart
  passed := by
    show List.Forall₂ _ ((h.events ++ [Event.brought content]).filterMap Event.pass?) _
    rw [List.filterMap_append]
    exact (List.append_nil h.passes).symm ▸ ht.passed
  recorded := by
    rw [hr, ht.recorded, List.flatMap_append]
    simp [Event.bytes]
  numbers := by rw [hw, ht.numbers]
  awaits := by
    rw [hw]
    exact ht.awaits.alike hv

/-- **The recorder writes checkpoints of its own**, and then all that waits may be sent. -/
theorem emits (ht : run.Tells h parts waiting) {r' : Recorder} {emissions : List Emission}
    {crossing : List ThreadId} (d? : Option Detached)
    (hfree : ∀ emission ∈ emissions, ∀ t, emission.lane = .carrier t → t ∉ h.crossed ++ crossing →
      ∀ m ∈ run.writers.zip h.numbers, m.1.lane ≠ emission.lane)
    (hr : match d? with
      | none => run.recorder.Emits emissions r'
      | some d => run.writers = [] ∧
          (∃ r₁, run.recorder.Emits emissions r₁ ∧ ∀ ℓ, d.on ℓ = (r₁.line ℓ).all) ∧
          ∀ ℓ, r'.line ℓ = ⟨[], []⟩)
    (hrec : ({ run with recorder := r' } : Run).recorded =
      run.recorded ++ d?.toList.flatMap fun d => d.sections.flatten) :
    ∃ parts' waiting', ({ run with recorder := r' } : Run).Tells
      { h with
        log := h.log ++ Emission.commits h.begun emissions
        events := h.events ++ d?.toList.map Event.pass
        begun := h.begun + emissions.length
        crossed := h.crossed ++ crossing } parts' waiting' := by
  have hmore : h.crossed ⊆ h.crossed ++ crossing := List.subset_append_left _ _
  have hpassed : List.Forall₂ (Passed (h.crossed ++ crossing)) h.passes parts :=
    ht.passed.imp fun _ _ hp => hp.mono hmore
  have hawaits := ht.awaits.mono hmore
  cases d? with
  | none =>
    refine ⟨parts, waiting ++ Emission.commits h.begun emissions, ?_, ht.apart, ?_, ?_, ht.numbers,
      hawaits.emits hr hfree⟩
    · dsimp only
      rw [ht.log, List.append_assoc]
    · simpa [History.passes] using hpassed
    · simpa [ht.recorded] using hrec
  | some d =>
    obtain ⟨hw, ⟨r₁, hemits, hd⟩, hempty⟩ := hr
    have hnumbers : h.numbers = [] := List.length_eq_zero_iff.1 (by rw [ht.numbers, hw]; rfl)
    have hall := hawaits.emits hemits hfree
    rw [hw] at hall
    obtain ⟨hpass, hrest⟩ := hall.pass hd hempty
    refine ⟨parts ++ [waiting ++ Emission.commits h.begun emissions], [], ?_, ?_, ?_, ?_,
      ht.numbers, ?_⟩
    · simp [ht.log]
    · rw [List.pairwise_append]
      refine ⟨ht.apart, List.pairwise_singleton _ _, ?_⟩
      intro part hpart part' hpart' c hc c' hc'
      rw [List.mem_singleton.1 hpart'] at hc'
      exact hall.before c (List.mem_flatten.2 ⟨part, hpart, hc⟩) c' hc'
    · show List.Forall₂ _ ((h.events ++ [Event.pass d]).filterMap Event.pass?) _
      rw [List.filterMap_append]
      exact List.rel_append hpassed (.cons hpass .nil)
    · simpa [ht.recorded, Event.bytes] using hrec
    · dsimp only
      rw [hw, List.flatten_append, List.flatten_singleton]
      exact hrest

/-- A writer begins. -/
theorem start (ht : run.Tells h parts waiting) (hs : run.Sound options) (thread : ThreadId)
    (kind : BufferKind) (hm : (Move.start thread kind).admitted run)
    (hrec : (run.start thread kind).2.recorded = run.recorded) :
    (run.start thread kind).2.Tells (h.next run (.start thread kind)) parts waiting := by
  obtain ⟨w, r, hrun, hstep⟩ := hs.runOn_start hm
  obtain ⟨-, -, -, -, hid⟩ := (Writer.ends_start hs.recorder thread kind false rfl).run_eq hrun
  obtain ⟨l, hl, hbegins⟩ :=
    (Writer.ends_start_shifts hs.recorder thread kind false rfl).run_eq hrun w rfl
  rw [hstep] at hrec ⊢
  have hlane : w.lane = .of kind thread := by
    obtain ⟨hthread, hkind, -⟩ := Writer.identity_eq_iff.1 hid
    rw [Writer.lane, hkind, hthread]
  rw [← hlane] at hl hbegins
  have hmore : h.crossed ⊆ h.crossed ++ (Move.start thread kind).crossing run :=
    List.subset_append_left _ _
  have hfree : ∀ t, w.lane = .carrier t → t ∉ h.crossed ++ (Move.start thread kind).crossing run →
      ∀ m ∈ run.writers.zip h.numbers, m.1.lane ≠ w.lane := by
    intro t hw hno
    cases kind with
    | threadLocal =>
      obtain rfl : thread = t := Lane.carrier.inj (hlane.symm.trans hw)
      rw [hw]
      refine lane_ne_of_not_occupied (Bool.eq_false_iff.2 fun hb => ?_) _
      simp [Move.crossing, hb] at hno
    | _ => cases hlane.symm.trans hw
  exact
    { log := ht.log
      apart := ht.apart
      passed := ht.passed.imp fun _ _ hp => hp.mono hmore
      recorded := hrec.trans ht.recorded
      numbers := by simp [History.next, ht.numbers]
      awaits := by
        have hzip : (run.writers ++ [w]).zip (h.numbers ++ [h.begun]) =
            run.writers.zip h.numbers ++ [(w, h.begun)] := List.zip_append ht.numbers.symm
        simp only [History.next, hzip]
        exact (ht.awaits.mono hmore).start hl hfree hbegins }

/-- A writer takes a segment. -/
theorem append (ht : run.Tells h parts waiting) (hs : run.Sound options) (writer : Nat)
    (segment : Bytes) (hm : (Move.append writer segment).admitted run)
    (hrec : (run.append writer segment).2.recorded = run.recorded) :
    ∃ waiting', (run.append writer segment).2.Tells (h.next run (.append writer segment)) parts
      waiting' := by
  simp only [History.next, History.commits]
  cases hw : run.writers[writer]? with
  | none =>
    refine ⟨waiting, ?_⟩
    simpa [Run.append, hw] using ht
  | some w =>
    obtain ⟨hsw, hv, -⟩ := hs.seen hw
    obtain ⟨pre, post, a, ha, hzip, hset, -⟩ := zip_eq ht.numbers hw
    obtain ⟨outcome, w', r, hrun, hnot, hstep⟩ := hs.runOn_append hw hm
    obtain ⟨_, _, ⟨⟩, hid, -⟩ := (hv.append hsw segment).run_eq hrun
    obtain ⟨l, hl, hturn⟩ :=
      ((hv.append_turns hsw segment).run_eq hrun outcome w' rfl).resolve_left hnot
    rw [hstep] at hrec ⊢
    have hawaits := ht.awaits
    rw [hzip] at hawaits
    refine ⟨waiting ++ Commit.all w.lane a (w.cutOff? segment run.recorder.clock).toList, ?_⟩
    exact
      { log := by rw [ha, ht.log, List.append_assoc]
        apart := ht.apart
        passed := ht.passed
        recorded := hrec.trans ht.recorded
        numbers := by rw [List.length_set, ht.numbers]
        awaits := by
          rw [hset]
          exact hawaits.turn hl (Writer.lane_eq_of_identity_eq hid) hturn }

/-- **A writer leaves**, and its last entry may be one more commit. -/
theorem close {α : Type} {x : Writer → Action α} (ht : run.Tells h parts waiting)
    (hs : run.Sound options) (writer : Nat) (piece? : Writer → Option Bytes)
    (hx : ∀ w out, w.Valid run.recorder.epoch.current →
      run.recorder.Sound (w.buffer.toList ++ out) run.recorder.epoch.current →
      (w.Gone → piece? w = none) ∧ Ends (x w) run.recorder fun _ r' =>
        ∃ l, (run.recorder.line w.lane).Closes (w.held ++ (piece? w).toList) l ∧
          run.recorder.Shifts w.lane l r')
    (hrec : (run.close writer x).2.recorded = run.recorded) :
    ∃ waiting', (run.close writer x).2.Tells
      { h with
        log := h.log ++ h.commits run writer piece?
        numbers := h.numbers.eraseIdx writer } parts waiting' := by
  unfold History.commits
  cases hw : run.writers[writer]? with
  | none =>
    have hlong : h.numbers.length ≤ writer := ht.numbers ▸ List.getElem?_eq_none_iff.1 hw
    refine ⟨waiting, ?_⟩
    simpa [Run.close, hw, List.eraseIdx_of_length_le hlong] using ht
  | some w =>
    obtain ⟨hsw, hv, -⟩ := hs.seen hw
    obtain ⟨pre, post, a, ha, hzip, -, herase⟩ := zip_eq ht.numbers hw
    obtain ⟨hnone, l, hcloses, hl⟩ := hx w _ hv hsw
    rw [close_eq hw] at hrec ⊢
    have hturn : w.Turns (piece? w).toList (run.recorder.line w.lane) w.gone l :=
      hv.turns_gone (fun hgone => by rw [hnone hgone]; rfl) hcloses
    have hawaits := ht.awaits
    rw [hzip] at hawaits
    refine ⟨waiting ++ Commit.all w.lane a (piece? w).toList, ?_⟩
    exact
      { log := by rw [ha, ht.log, List.append_assoc]
        apart := ht.apart
        passed := ht.passed
        recorded := hrec.trans ht.recorded
        numbers := by
          obtain ⟨hlt, -⟩ := List.getElem?_eq_some_iff.1 hw
          rw [List.length_eraseIdx_of_lt hlt, List.length_eraseIdx_of_lt (ht.numbers ▸ hlt),
            ht.numbers]
        awaits := by
          rw [herase]
          have hlane : w.gone.lane = w.lane := rfl
          exact (hawaits.turn hl hlane hturn).leave (Writer.gone_gone w) }

/-- **The recorder writes checkpoints of its own.** -/
theorem publish {α : Type} {x : Action α} {emissions : List Emission} {crossing : List ThreadId}
    (ht : run.Tells h parts waiting)
    (hg : (run.perform x).1.all (fun fault => !fault.endsThread) = true)
    (hx : Ends x run.recorder fun answer r' =>
      Refused answer ∨ run.recorder.Emits emissions r')
    (hfree : ∀ emission ∈ emissions, ∀ t, emission.lane = .carrier t → t ∉ h.crossed ++ crossing →
      ∀ m ∈ run.writers.zip h.numbers, m.1.lane ≠ emission.lane)
    (hrec : (run.perform x).2.recorded = run.recorded) :
    ∃ parts' waiting', (run.perform x).2.Tells
      { h with
        log := h.log ++ Emission.commits h.begun emissions
        events := h.events ++ []
        begun := h.begun + emissions.length
        crossed := h.crossed ++ crossing } parts' waiting' := by
  have hpost := hx.resolve_left (not_refused hg)
  unfold Run.perform at hrec ⊢
  rcases hrun : Fallible.runOn x run.recorder with ⟨answer, r⟩
  rw [hrun] at hpost hrec
  have hrec : ({ run with recorder := r } : Run).recorded = run.recorded ++ [] := by
    rw [List.append_nil]
    exact hrec
  exact ht.emits none hfree hpost hrec

/-- **A drain** writes some checkpoints, and sends all that waits unless it is refused. -/
theorem drain {first : Action Detached} {x : Action Nat} {emissions : List Emission}
    {out : List Buffer} {e : Epoch}
    (ht : run.Tells h parts waiting) (hw : run.writers = [])
    (hx : x = do let d ← first; Recorder.emit d)
    (hg : (run.perform x).1.all (fun fault => !fault.endsThread) = true)
    (hd : ∀ report, (run.perform x).1 ≠ some (.sink report))
    (hfirst : Recorder.Collects first emissions run.recorder out e)
    (hrec : (run.perform x).2.recorded = run.recorded ++ run.recorder.sent first) :
    ∃ parts' waiting', (run.perform x).2.Tells
      { h with
        log := h.log ++ Emission.commits h.begun emissions
        events := h.events ++
          (Fallible.runOn first run.recorder).1.toOption.toList.map Event.pass
        begun := h.begun + emissions.length
        crossed := h.crossed ++ [] } parts' waiting' := by
  subst hx
  have hpost := hfirst.emit
  unfold Run.perform at hg hd hrec ⊢
  rcases hrun : Fallible.runOn (do let d ← first; Recorder.emit d) run.recorder with ⟨answer, r⟩
  rw [hrun] at hg hd hrec
  have hpost := (hpost.run_eq hrun).resolve_left (not_refused hg)
  have hpost := hpost.resolve_left fun ⟨report, hreport⟩ => hd report (by rw [hreport]; rfl)
  have hfree : ∀ emission ∈ emissions, ∀ t, emission.lane = .carrier t → t ∉ h.crossed ++ [] →
      ∀ m ∈ run.writers.zip h.numbers, m.1.lane ≠ emission.lane := by
    intro _ _ _ _ _ m hm
    rw [hw] at hm
    cases hm
  rcases hone : Fallible.runOn first run.recorder with ⟨fault | d, r₁⟩
  · rw [hone] at hpost
    have hnone : run.recorder.sent first = [] := by rw [Recorder.sent, hone]
    rw [hnone] at hrec
    exact ht.emits none hfree hpost hrec
  · rw [hone] at hpost
    obtain ⟨hemits, hempty, hsent, -⟩ := hpost
    rw [hsent] at hrec
    refine ht.emits (some d) hfree ⟨hw, hemits, hempty⟩ ?_
    rw [hrec]
    simp

theorem installSink (ht : run.Tells h parts waiting) (sink : Sink) :
    (run.step (.installSink sink)).Tells (h.next run (.installSink sink)) parts waiting := by
  simp only [History.next, Run.fault?, Run.step, Run.act, Run.perform, Recorder.installSink,
    Fallible.runOn_bind, Fallible.runOn_get]
  cases hsink : run.recorder.sink with
  | some old => simpa [faultOf] using ht
  | none =>
    have hnone : run.recorder.chunk = [] := by
      rw [Recorder.chunk, hsink]
      rfl
    refine ht.bring rfl rfl ?_
    rw [recorded_eq, recorded_eq, hnone]
    simp [Recorder.chunk, Fallible.runOn_set]

theorem replaceSink (ht : run.Tells h parts waiting) (sink : Sink) :
    (run.step (.replaceSink sink)).Tells (h.next run (.replaceSink sink)) parts waiting := by
  have hreplace := run.recorder.ends_replaceSink sink
  simp only [History.next, Run.fault?, Run.step, Run.act, Run.replaceSink]
  rcases hrun : Fallible.runOn (Recorder.replaceSink sink) run.recorder with ⟨fault | old, r⟩
  · obtain ⟨sink', rfl, hcontent⟩ := hreplace.run_eq hrun
    refine ht.still (ht.awaits.alike rfl) rfl ?_
    rw [recorded_eq, recorded_eq]
    exact congrArg (_ ++ ·) (Recorder.flatMap_content_eq hcontent)
  · obtain ⟨rfl, hcontent⟩ := hreplace.run_eq hrun
    have hold : old.toList.flatMap Sink.content = run.recorder.sink.toList.flatMap Sink.content :=
      Recorder.flatMap_content_eq hcontent
    refine ht.bring rfl rfl ?_
    rw [recorded_eq, recorded_eq]
    simp [Recorder.chunk, Recorder.withSink, hold]

end Tells

theorem free_singleton {emission : Emission} (hno : ∀ t, emission.lane ≠ .carrier t)
    {crossed : List ThreadId} {crew : Crew} : ∀ other ∈ [emission], ∀ t, other.lane = .carrier t →
      t ∉ crossed → ∀ m ∈ crew, m.1.lane ≠ other.lane := by
  intro other ho t hlane
  rw [List.mem_singleton.1 ho] at hlane
  exact absurd hlane (hno t)

/-- **An admitted move goes along with its history**, if nothing is discarded and no sink refuses a
call.  Whatever the move is, it comes to one of a few things: a writer begins, goes on or leaves,
the recorder writes checkpoints of its own, or a pass sends all that waits. -/
theorem Tells.step {waiting : List Commit} (ht : run.Tells h parts waiting)
    (hs : run.Sound options) (m : Move) (hm : m.admitted run) (hd : m.delivers run = true) :
    ∃ parts' waiting', (run.step m).Tells (h.next run m) parts' waiting' := by
  have hrecorded := (hs.step m hm).2.recorded
  -- Only sinks bring bytes of their own, and only drains send any.
  have hsame : (m.ledger run).brought = [] → (m.ledger run).accepted = [] →
      (run.step m).recorded = run.recorded := fun hb ha => by
    rw [hrecorded hb, ha, List.append_nil]
  have hr := hs.recorder
  have hg := hm.2
  cases m with
  | start thread kind => exact ⟨parts, waiting, ht.start hs thread kind hm (hsame rfl rfl)⟩
  | append writer segment => exact ⟨parts, ht.append hs writer segment hm (hsame rfl rfl)⟩
  | finish writer =>
    exact ⟨parts, ht.close hs writer _ (fun w out hv hsw =>
      ⟨fun hgone => hgone.lastPiece?_eq _, hv.finish_shifts hsw⟩) (hsame rfl rfl)⟩
  | abandon writer =>
    have hnone : h.commits run writer (fun _ => none) = [] := by
      unfold History.commits
      split <;> rfl
    have hclose := ht.close hs writer (fun _ => none)
      (fun w out hv hsw => ⟨fun _ => rfl, by simpa using hv.abandon_shifts hsw⟩) (hsame rfl rfl)
    rw [hnone, List.append_nil] at hclose
    exact ⟨parts, hclose⟩
  | releaseThread thread =>
    have hnext : h.next run (.releaseThread thread) = h := by
      simp [History.next, Move.emissions, Move.pass?, Move.first?, Move.crossing, Emission.commits]
    have hrelease := hr.releaseThread_shifts thread
    have hrec := hsame rfl rfl
    rw [hnext]
    rcases hrun : Fallible.runOn (Recorder.releaseThread thread) run.recorder with ⟨answer, r⟩
    have hrun' : run.step (.releaseThread thread) = { run with recorder := r } := by
      simp [Run.step, Run.act, Run.perform, hrun]
    rw [hrun'] at hrec ⊢
    refine ⟨parts, waiting, ht.still ?_ rfl hrec⟩
    exact ht.awaits.yield (hrelease.run_eq hrun) (Line.queue_prefix_yield _) (Line.all_yield _)
  | writeStatics thread =>
    have hemits : Ends (get >>= fun r => Recorder.writeRelations thread .global false r.statics)
        run.recorder _ :=
      Ends.after (Fallible.runOn_get _) (hr.writeRelations_emits thread .global false rfl _)
    exact ht.publish hg hemits (free_singleton (by simp)) (hsame rfl rfl)
  | writeThreads thread =>
    have hemits := hr.writeRelations_emits thread .global false rfl
      (ThreadInfo.table run.recorder.host.liveThreads)
    exact ht.publish hg (Ends.after (Fallible.runOn_get _) hemits) (free_singleton (by simp))
      (hsame rfl rfl)
  | writeStaticsAndThreads =>
    exact ht.publish hg hr.writeStaticsAndThreads_emits
      (fun _ he t hlane => by
        cases (Recorder.lane_of_mem_staticAndThreadEmissions he).symm.trans hlane)
      (hsame rfl rfl)
  | writeTypeSet =>
    exact ht.publish hg (hr.writeTypeSet_emits false rfl) (free_singleton (by simp)) (hsame rfl rfl)
  | writeCheckpoint thread id mounted =>
    refine ht.publish hg (hr.writeCheckpoint_emits thread id mounted) ?_ (hsame rfl rfl)
    intro emission he t hlane hno
    rw [List.mem_singleton.1 he] at hlane ⊢
    cases mounted with
    | some v => cases hlane
    | none =>
      refine lane_ne_of_not_occupied (Bool.eq_false_iff.2 fun hb => hno ?_) _
      obtain rfl : thread.id = t := Lane.carrier.inj hlane
      simp [Move.crossing, hb]
  | writeSimplified id =>
    exact ht.publish hg
      (hr.writeRelations_emits id .virtualThreadLocal false rfl [ThreadInfo.simplified id])
      (free_singleton (by simp)) (hsame rfl rfl)
  | registerStatic | changeStatic | registerConstant | clearTypeSet | purgeUnloading | changeHost
  | setClock | notifyThreads =>
    refine ht.emits none (fun _ he => by cases he) (.done ?_)
      ((hsame rfl rfl).trans (List.append_nil _).symm)
    funext kind
    cases kind <;> rfl
  | write =>
    exact ht.drain (hs.writers_eq_nil (hm.1 rfl)) rfl hg (Move.fault_ne_sink hd)
      (hr.detachForWrite_collects hs.barrier) (hrecorded rfl)
  | flushTypeSet =>
    exact ht.drain (hs.writers_eq_nil (hm.1 rfl)) Recorder.flushTypeSet_eq hg
      (Move.fault_ne_sink hd) (hr.detachForFlush_collects hs.barrier) (hrecorded rfl)
  | clear => cases hd
  | shift =>
    refine ht.publish hg ((hr.shift hs.barrier).mono ?_) (fun _ he => by cases he) (hsame rfl rfl)
    rintro answer r' (⟨-, -, rfl⟩ | ⟨-, -, -, rfl⟩ | ⟨-, -, -, rfl⟩)
    · exact .inr (.refl _)
    · exact .inr (.done (Recorder.visible_moveEpoch _ _))
    · exact .inr (.done rfl)
  | rotate =>
    exact ht.drain (hs.writers_eq_nil (hm.1 rfl)) rfl hg (Move.fault_ne_sink hd)
      (hr.detachForRotation_collects hs.barrier) (hrecorded rfl)
  | installSink sink => exact ⟨parts, waiting, ht.installSink sink⟩
  | replaceSink sink => exact ⟨parts, waiting, ht.replaceSink sink⟩

/-! ## 4. Whole runs -/

theorem Chronicle.reachable (c : Chronicle options run h) : Reachable options run := by
  induction c with
  | create h => exact .create h
  | step _ m hm _ ih => exact ih.step m hm

/-- **Every history tells what happened in its run**: its log is cut into the parts that the passes
have sent and the part that still waits, by induction on the run from `Tells.step`. -/
theorem Chronicle.tells (c : Chronicle options run h) :
    ∃ parts waiting, run.Tells h parts waiting := by
  induction c with
  | create hc =>
    obtain ⟨hsound, hpooled, hsink, -⟩ := Recorder.sound_create hc
    refine ⟨[], [], rfl, .nil, .nil, ?_, rfl, .empty ?_ ?_⟩
    · rw [recorded_eq, Recorder.chunk, hsink]
      rfl
    · exact ⟨fun m hm => (by cases hm), .nil, fun c hc => (by cases hc), fun c hc => (by cases hc),
        fun c hc => (by cases hc)⟩
    · exact hsound.recorder.line_of_empty fun b hb => by
        rw [hpooled] at hb
        cases hb
  | step c m hm hd ih =>
    obtain ⟨parts, waiting, ht⟩ := ih
    exact ht.step c.reachable.sound m hm hd

/-- **Entries are recorded in the order in which they were committed.**  The bytes of the chunks are
what sinks brought and what passes sent, in order, and a pass sends the entries of the global pool,
then those of carrier threads, then those of virtual threads.  What the passes took from the global
pool is a prefix of all that was ever committed there; so it is in the pool of virtual threads, and
on the lane of each carrier thread whose writers do not overlap.  The log is cut into parts, one for
each pass and one for what waits, such that no checkpoint has pieces in two of them; and in its pass
the pieces of a checkpoint stand in order, also if writers of its thread overlap. -/
theorem Chronicle.emission_order (c : Chronicle options run h) :
    run.recorded = h.events.flatMap Event.bytes ∧
    h.passes.flatMap (·.entriesOf .global) <+: Commit.on .global h.log ∧
    h.passes.flatMap (·.entriesOf .virtualThreadLocal) <+: Commit.on .virtual h.log ∧
    (∀ t, t ∉ h.crossed →
      h.passes.flatMap (·.on (.carrier t)) <+: Commit.on (.carrier t) h.log) ∧
    ∃ parts waiting, h.log = parts.flatten ++ waiting ∧ (parts ++ [waiting]).Pairwise Before ∧
      List.Forall₂ (Passed h.crossed) h.passes parts := by
  obtain ⟨parts, waiting, ht⟩ := c.tells
  have hlane : ∀ ℓ, Plain h.crossed ℓ →
      h.passes.flatMap (·.on ℓ) <+: Commit.on ℓ h.log := by
    intro ℓ hp
    rw [ht.log, Commit.on_append, Passed.flatMap_on ht.passed hp]
    exact List.prefix_append _ _
  have hpool : ∀ ℓ, ℓ.kind ≠ .threadLocal →
      h.passes.flatMap (·.entriesOf ℓ.kind) <+: Commit.on ℓ h.log := by
    intro ℓ hk
    have hprefix := hlane ℓ fun t ht => absurd (by rw [ht]; rfl) hk
    simpa only [Detached.on_eq_entriesOf _ hk] using hprefix
  refine ⟨ht.recorded, ?_, ?_, fun t ht => ?_, parts, waiting, ht.log, ?_, ht.passed⟩
  · exact hpool .global (by decide)
  · exact hpool .virtual (by decide)
  · exact hlane (.carrier t) fun t' ht' => by rwa [← Lane.carrier.inj ht']
  · rw [List.pairwise_append]
    refine ⟨ht.apart, List.pairwise_singleton _ _, ?_⟩
    intro part hpart part' hpart' c hc c' hc'
    rw [List.mem_singleton.1 hpart'] at hc'
    exact ht.awaits.before c (List.mem_flatten.2 ⟨part, hpart, hc⟩) c' hc'

def recount (run : Run) (h : History) : List Move → History
  | [] => h
  | m :: rest => (run.step m).recount (h.next run m) rest

def delivers (run : Run) : List Move → Bool
  | [] => true
  | m :: rest => m.delivers run && (run.step m).delivers rest

theorem Chronicle.walk (c : Chronicle options run h) (moves : List Move) (hm : run.Admits moves)
    (hd : run.delivers moves = true) :
    Chronicle options (run.walk moves) (run.recount h moves) := by
  induction moves generalizing run h with
  | nil => exact c
  | cons m rest ih =>
    have hd := Bool.and_eq_true_iff.1 hd
    exact ih (c.step m hm.1 hd.1) hm.2 hd.2

/-- Two global writers overlap; a carrier thread writes a checkpoint in two pieces while a virtual
thread writes one, and begins another one after a rotation. -/
def woven : List Move :=
  [.installSink {}, .start 1 .global, .start 2 .global, .append 0 [1], .append 1 [2, 3], .finish 1,
   .finish 0, .write, .replaceSink {}, .start 7 .threadLocal, .append 0 (List.replicate 20 5),
   .start 1 .virtualThreadLocal, .append 1 [6], .append 0 (List.replicate 40 4), .finish 1,
   .finish 0, .rotate, .start 7 .threadLocal, .append 0 [7], .finish 0]

/-- The second global writer is at its end before the first one is, and a virtual thread commits its
entry between the two pieces of the carrier thread. -/
theorem Chronicle.emission_order_woven :
    let run := small.walk woven
    let h := small.recount {} woven
    h.log.map Commit.checkpoint = [1, 0, 2, 3, 2, 7] ∧ h.passes.length = 2 ∧ h.crossed = [] ∧
    run.recorded = h.events.flatMap Event.bytes ∧
    h.passes.flatMap (·.entriesOf .global) <+: Commit.on .global h.log ∧
    h.passes.flatMap (·.on (.carrier 7)) <+: Commit.on (.carrier 7) h.log := by
  intro run h
  have hmoves : small.Admits woven ∧ small.delivers woven = true ∧
      h.log.map Commit.checkpoint = [1, 0, 2, 3, 2, 7] ∧ h.passes.length = 2 ∧ h.crossed = [] := by
    decide +kernel
  obtain ⟨hm, hd, hlog, hpasses, hcrossed⟩ := hmoves
  have c : Chronicle smallOptions run h := (Chronicle.create create_small).walk woven hm hd
  obtain ⟨hrecorded, hglobal, -, hcarrier, -⟩ := c.emission_order
  exact ⟨hlog, hpasses, hcrossed, hrecorded, hglobal, hcarrier 7 (hcrossed ▸ List.not_mem_nil)⟩

end Run

end TraceRecorder
