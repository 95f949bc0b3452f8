/-
# How far an emission comes

A drain appends the committed bytes of one detached buffer after the other, and appends nothing
more once the sink has refused a call.  So the sink takes the first few of the buffers that carry
anything, and which those are is known beforehand: `Sink.granted` counts the calls that the sink is
going to accept.

* `Sink.deliver`: what a sink makes of some buffers, which `Sink.delivers` describes: the bytes that
  it has taken, and when there is a failure;
* `Sound.emit`: an emission does just this to the sink, and all buffers come back.

All that an emission needs of the detached buffers is that the pools still reckon with them, so of
the pools' part in it only their husks are left.
-/
import TraceRecorder.Proofs.Recorder.Leases
import TraceRecorder.Proofs.Recorder.Ledger
import TraceRecorder.Recorder.Drain

namespace TraceRecorder

open Fallible (Ends)

/-! ## 1. Sinks -/

namespace Sink

/-- How many of some calls in a row are accepted, up to the first that is refused. -/
def acceptedFrom (refusal : Nat → Option Report) (first : Nat) : (calls : Nat) → Nat
  | 0 => 0
  | calls + 1 =>
    match refusal first with
    | some _ => 0
    | none => acceptedFrom refusal (first + 1) calls + 1

/-- **How many of the next calls in a row the sink accepts**, up to the first that it refuses. -/
def granted (s : Sink) (calls : Nat) : Nat := acceptedFrom s.appendFault s.appends calls

/-- The sink accepts every call. -/
structure Reliable (s : Sink) : Prop where
  append : ∀ n, s.appendFault n = none
  flush : ∀ n, s.flushFault n = none

theorem acceptedFrom_le (refusal : Nat → Option Report) (first calls : Nat) :
    acceptedFrom refusal first calls ≤ calls := by
  induction calls generalizing first with
  | zero => exact Nat.le_refl _
  | succ calls ih =>
    unfold acceptedFrom
    cases refusal first with
    | some _ => exact Nat.zero_le _
    | none => exact Nat.succ_le_succ (ih (first + 1))

/-- All calls before that are accepted. -/
theorem acceptedFrom_accepts {refusal : Nat → Option Report} {first calls i : Nat}
    (h : i < acceptedFrom refusal first calls) : refusal (first + i) = none := by
  induction calls generalizing first i with
  | zero => exact absurd h (Nat.not_lt_zero i)
  | succ calls ih =>
    unfold acceptedFrom at h
    cases hf : refusal first with
    | some _ =>
      rw [hf] at h
      exact absurd h (Nat.not_lt_zero i)
    | none =>
      rw [hf] at h
      cases i with
      | zero => exact hf
      | succ i =>
        have hnext := ih (Nat.lt_of_succ_lt_succ h)
        rwa [Nat.add_assoc, Nat.add_comm 1 i] at hnext

theorem acceptedFrom_refuses {refusal : Nat → Option Report} {first calls : Nat}
    (h : acceptedFrom refusal first calls < calls) :
    (refusal (first + acceptedFrom refusal first calls)).isSome = true := by
  induction calls generalizing first with
  | zero => exact absurd h (Nat.not_lt_zero _)
  | succ calls ih =>
    unfold acceptedFrom at h ⊢
    cases hf : refusal first with
    | some _ => exact Option.isSome_iff_exists.2 ⟨_, hf⟩
    | none =>
      rw [hf] at h
      have hnext := ih (Nat.lt_of_succ_lt_succ h)
      rwa [Nat.add_assoc, Nat.add_comm 1] at hnext

theorem granted_of_reliable {s : Sink} (h : s.Reliable) (calls : Nat) :
    s.granted calls = calls := by
  have hle := acceptedFrom_le s.appendFault s.appends calls
  refine Nat.le_antisymm hle (Nat.not_lt.1 fun hlt => ?_)
  have hrefused := acceptedFrom_refuses hlt
  rw [h.append] at hrefused
  cases hrefused

/-- One buffer is sent, unless it carries nothing or a call was refused before. -/
def send (progress : Emitted × Sink) (b : Buffer) : Emitted × Sink :=
  if progress.1.failure.isSome || b.isEmpty then progress
  else
    match progress.2.append b.committed with
    | (.ok _, s) => ({ progress.1 with written := progress.1.written + b.used }, s)
    | (.error fault, s) => ({ progress.1 with failure := some (.sink fault) }, s)

end Sink

def laden (buffers : List Buffer) : List Buffer := buffers.filter fun b => !b.isEmpty

theorem usedBytes_laden (buffers : List Buffer) :
    usedBytes (laden buffers) = usedBytes buffers := by
  induction buffers with
  | nil => rfl
  | cons b rest ih =>
    rw [laden, List.filter_cons, usedBytes_cons, ← ih]
    split
    · rfl
    · rename_i hb
      have hused : b.used = 0 := by simpa [Buffer.isEmpty] using hb
      rw [hused, Nat.zero_add]
      rfl

theorem usedBytes_eq_length (buffers : List Buffer) :
    usedBytes buffers = (buffers.flatMap fun b => b.committed.bytes).length := by
  induction buffers with
  | nil => rfl
  | cons b rest ih =>
    rw [usedBytes_cons, ih, List.flatMap_cons, List.length_append, Tape.length_bytes, Buffer.used]

namespace Sink

theorem foldl_send_of_failure {progress : Emitted × Sink} (h : progress.1.failure.isSome = true)
    (buffers : List Buffer) : buffers.foldl send progress = progress := by
  induction buffers with
  | nil => rfl
  | cons b rest ih => rw [List.foldl_cons, send, h, Bool.true_or, if_pos rfl, ih]

/-- **What is sent is the first few of the buffers that carry anything**, as many as the sink
accepts, and the sink stays what it is. -/
theorem foldl_send (s : Sink) (written : Nat) (buffers : List Buffer) :
    let sent := (laden buffers).take (s.granted (laden buffers).length)
    let progress := buffers.foldl send ({ written := written }, s)
    progress.2.content = s.content ++ sent.flatMap (fun b => b.committed.bytes) ∧
      progress.1.written = written + usedBytes sent ∧
      progress.1.failure.isNone = (s.granted (laden buffers).length == (laden buffers).length) ∧
      progress.2.appendFault = s.appendFault ∧ progress.2.flushFault = s.flushFault ∧
      progress.2.flushes = s.flushes := by
  induction buffers generalizing s written with
  | nil => exact ⟨(List.append_nil _).symm, rfl, rfl, rfl, rfl, rfl⟩
  | cons b rest ih =>
    by_cases hb : b.isEmpty = true
    · have hladen : laden (b :: rest) = laden rest := by simp [laden, hb]
      have hsend : send ({ written := written }, s) b = ({ written := written }, s) := by
        simp [send, hb]
      rw [hladen, List.foldl_cons, hsend]
      exact ih s written
    · have hb : b.isEmpty = false := by simpa using hb
      have hladen : laden (b :: rest) = b :: laden rest := by simp [laden, hb]
      rw [hladen, List.foldl_cons, List.length_cons]
      cases hf : s.appendFault s.appends with
      | some fault =>
        have hsend : send ({ written := written }, s) b =
            ({ written := written, failure := some (.sink fault) },
              { s with appends := s.appends + 1 }) := by
          simp [send, hb, append, hf]
        have hg : s.granted ((laden rest).length + 1) = 0 := by
          rw [granted, acceptedFrom, hf]
        rw [hsend, foldl_send_of_failure rfl, hg]
        exact ⟨(List.append_nil _).symm, rfl, rfl, rfl, rfl, rfl⟩
      | none =>
        let next : Sink := { s with appends := s.appends + 1, taken := s.taken.join b.committed }
        have hsend : send ({ written := written }, s) b =
            ({ written := written + b.used }, next) := by
          simp [send, hb, append, hf, next]
        have hg : s.granted ((laden rest).length + 1) = next.granted (laden rest).length + 1 := by
          rw [granted, acceptedFrom, hf]
          rfl
        obtain ⟨hcontent, hwritten, hfailure, ha, hfl⟩ := ih next (written + b.used)
        rw [hsend, hg, List.take_succ_cons]
        refine ⟨?_, ?_, ?_, ha, hfl⟩
        · rw [hcontent, List.flatMap_cons, ← List.append_assoc]
          exact congrArg (· ++ _) (Tape.bytes_join _ _)
        · rw [hwritten, usedBytes_cons, Nat.add_assoc]
        · rw [hfailure]
          simp

theorem foldl_send_failure (buffers : List Buffer) (progress : Emitted × Sink)
    (h : ∀ fault, progress.1.failure = some fault → ∃ f, fault = .sink f) :
    ∀ fault, (buffers.foldl send progress).1.failure = some fault → ∃ f, fault = .sink f := by
  induction buffers generalizing progress with
  | nil => exact h
  | cons b rest ih =>
    refine ih _ fun fault hf => ?_
    unfold send at hf
    split at hf
    · exact h fault hf
    · split at hf
      · exact h fault hf
      · exact ⟨_, (Option.some.inj hf).symm⟩

/-- What was taken is passed on, unless a call was refused before. -/
def passOn (progress : Emitted × Sink) : Emitted × Sink :=
  if progress.1.failure.isSome then progress
  else
    match progress.2.flush with
    | (.ok _, s) => (progress.1, s)
    | (.error fault, s) => ({ progress.1 with failure := some (.sink fault) }, s)

theorem passOn_of_failure {progress : Emitted × Sink} (h : progress.1.failure.isSome = true) :
    passOn progress = progress := if_pos h

theorem passOn_of_none {progress : Emitted × Sink} (h : progress.1.failure = none) :
    passOn progress = ({ progress.1 with
        failure := (progress.2.flushFault progress.2.flushes).map Fault.sink },
      { progress.2 with flushes := progress.2.flushes + 1 }) := by
  obtain ⟨⟨written, failure⟩, s⟩ := progress
  obtain rfl : failure = none := h
  cases hf : s.flushFault s.flushes <;> simp [passOn, flush, hf]

theorem content_passOn (progress : Emitted × Sink) :
    (passOn progress).2.content = progress.2.content := by
  cases hf : progress.1.failure with
  | some fault => rw [passOn_of_failure (by rw [hf]; rfl)]
  | none =>
    rw [passOn_of_none hf]
    rfl

/-- **What a sink makes of some buffers**: they are sent, and then what was taken is passed on. -/
def deliver (s : Sink) (buffers : List Buffer) : Emitted × Sink :=
  passOn (buffers.foldl send ({}, s))

def share (s : Sink) (buffers : List Buffer) : List Buffer :=
  (laden buffers).take (s.granted (laden buffers).length)

/-- **What is known of a delivery.**  There is a failure exactly if the sink did not take all that
carries anything, or does not pass on what it took. -/
structure Delivers (s : Sink) (buffers : List Buffer) (done : Emitted × Sink) : Prop where
  content : done.2.content = s.content ++ (s.share buffers).flatMap fun b => b.committed.bytes
  written : done.1.written = usedBytes (s.share buffers)
  failure : done.1.failure.isSome = true ↔
    s.granted (laden buffers).length < (laden buffers).length ∨
      (s.flushFault s.flushes).isSome = true
  fault : ∀ fault, done.1.failure = some fault → ∃ f, fault = .sink f
  appendFault : done.2.appendFault = s.appendFault
  flushFault : done.2.flushFault = s.flushFault

theorem delivers (s : Sink) (buffers : List Buffer) : s.Delivers buffers (s.deliver buffers) := by
  obtain ⟨hcontent, hwritten, hfailure, ha, hf, hflushes⟩ := foldl_send s 0 buffers
  have hfault := foldl_send_failure buffers ({}, s) fun fault h => by cases h
  have hle := acceptedFrom_le s.appendFault s.appends (laden buffers).length
  have hle : s.granted (laden buffers).length ≤ (laden buffers).length := hle
  rw [Nat.zero_add] at hwritten
  unfold deliver
  cases hstop : (buffers.foldl send ({}, s)).1.failure with
  | some fault =>
    rw [hstop] at hfailure
    have hless := Nat.lt_of_le_of_ne hle (beq_eq_false_iff_ne.1 hfailure.symm)
    rw [passOn_of_failure (by rw [hstop]; rfl)]
    exact ⟨hcontent, hwritten, by simp [hstop, hless], hfault, ha, hf⟩
  | none =>
    rw [hstop] at hfailure
    have hall := beq_iff_eq.1 hfailure.symm
    rw [passOn_of_none hstop]
    refine ⟨hcontent, hwritten, ?_, ?_, ha, hf⟩
    · rw [hf, hflushes, hall]
      simp
    · intro fault h
      obtain ⟨f, -, rfl⟩ := Option.map_eq_some_iff.1 h
      exact ⟨f, rfl⟩

/-- **A sink that accepts every call takes everything.** -/
theorem share_of_reliable {s : Sink} (h : s.Reliable) (buffers : List Buffer) :
    s.share buffers = laden buffers := by
  rw [share, granted_of_reliable h, List.take_length]

theorem Delivers.reliable {s : Sink} {buffers : List Buffer} {done : Emitted × Sink}
    (h : s.Delivers buffers done) (hr : s.Reliable) :
    done.2.Reliable ∧ done.1.failure = none ∧ done.1.written = usedBytes buffers := by
  refine ⟨⟨fun n => h.appendFault ▸ hr.append n, fun n => h.flushFault ▸ hr.flush n⟩, ?_, ?_⟩
  · rw [← Option.not_isSome_iff_eq_none, h.failure, granted_of_reliable hr, hr.flush]
    simp
  · rw [h.written, share_of_reliable hr, usedBytes_laden]

end Sink

/-- What an emission answers that came so far. -/
def Emitted.answer (progress : Emitted) : Except Fault Nat :=
  match progress.failure with
  | some fault => .error fault
  | none => .ok progress.written

namespace Recorder

variable {r : Recorder} {out : List Buffer} {e : Epoch}

/-! ## 2. Emissions -/

def withSink (r : Recorder) (s : Sink) : Recorder := { r with sink := some s }

theorem Sound.withSink (h : r.Sound out e) (s : Sink) : (r.withSink s).Sound out e :=
  h.alike (fun kind => by cases kind <;> rfl) rfl rfl rfl

theorem withSink_surroundings_eq {r' : Recorder} (h : r'.surroundings = r.surroundings) (s : Sink) :
    (r'.withSink s).surroundings = (r.withSink s).surroundings :=
  (congrArg (·.withSink s) h :)

theorem runOn_emitBuffer {s : Sink} (hs : r.sink = some s) (progress : Emitted) (b : Buffer) :
    Fallible.runOn (emitBuffer progress b) r =
      (.ok (Sink.send (progress, s) b).1, r.withSink (Sink.send (progress, s) b).2) := by
  have hself : r.withSink s = r := by
    rw [withSink, ← hs]
  unfold emitBuffer Sink.send
  by_cases hc : (progress.failure.isSome || b.isEmpty) = true
  · rw [if_pos hc, if_pos hc, hself]
    rfl
  · rw [if_neg hc, if_neg hc]
    simp only [Fallible.runOn_bind, Fallible.runOn_get, hs]
    rcases s.append b.committed with ⟨fault | _, s'⟩ <;> rfl

theorem runOn_foldlM_emitBuffer {s : Sink} (hs : r.sink = some s) (progress : Emitted)
    (buffers : List Buffer) :
    Fallible.runOn (buffers.foldlM emitBuffer progress) r =
      (.ok (buffers.foldl Sink.send (progress, s)).1,
        r.withSink (buffers.foldl Sink.send (progress, s)).2) := by
  induction buffers generalizing r s progress with
  | nil =>
    rw [List.foldl_nil, withSink, ← hs]
    rfl
  | cons b rest ih =>
    rw [List.foldlM_cons, Fallible.runOn_bind, runOn_emitBuffer hs]
    exact ih rfl _

end Recorder

/-- All buffers that were detached, in the order in which they are emitted. -/
def Detached.buffers (d : Detached) : List Buffer := d.parts.flatMap Prod.snd

/-- Every detached buffer comes from the pool that it stands under. -/
def Detached.Sorted (parts : List (BufferKind × List Buffer)) : Prop :=
  ∀ part ∈ parts, ∀ b ∈ part.2, b.kind = part.1

namespace Recorder

variable {r : Recorder} {out : List Buffer} {e : Epoch}

/-- What an operation leaves alone that only uses the sink. -/
structure SinkOnly (r r' : Recorder) (s' : Sink) : Prop where
  surroundings : r'.surroundings = (r.withSink s').surroundings
  pooled : r'.pooled = r.pooled
  cut : r'.stats.flushes = r.stats.flushes
  last : r'.stats.checkpointsWritten = r.stats.checkpointsWritten

theorem SinkOnly.sink {r' : Recorder} {s' : Sink} (h : SinkOnly r r' s') : r'.sink = some s' :=
  sink_eq_of_surroundings_eq h.surroundings

theorem space_withSink (r : Recorder) (s : Sink) (kind : BufferKind) :
    (r.withSink s).space kind = r.space kind := by cases kind <;> rfl

theorem Regains.alike {r₀ r' r'' : Recorder} {buffers kept gone : List Buffer}
    (h : r.Regains r' buffers kept gone) (hs₀ : ∀ kind, r.space kind = r₀.space kind)
    (hd₀ : r.stats.buffersDeallocated = r₀.stats.buffersDeallocated)
    (hs : ∀ kind, r''.space kind = r'.space kind)
    (hd : r''.stats.buffersDeallocated = r'.stats.buffersDeallocated) :
    r₀.Regains r'' buffers kept gone where
  all := h.all
  free kind := by
    rw [hs, h.free, hs₀]
  visible kind := by
    rw [hs, h.visible, hs₀]
  counted := by
    rw [hd, h.counted, hd₀]

/-- **Pool by pool the buffers are sent and come back.**  What was sent is the same as if all
buffers were sent in a row: once the sink has refused a call nothing more is offered to it, but the
buffers of the later pools come back all the same. -/
theorem Sound.emitParts {parts : List (BufferKind × List Buffer)} (progress : Emitted) {s : Sink}
    (h : r.Sound ((parts.flatMap Prod.snd).map Buffer.husk ++ out) e)
    (hk : Detached.Sorted parts) (hs : r.sink = some s) :
    Ends (emitParts parts progress) r fun answer r' =>
      answer = .ok ((parts.flatMap Prod.snd).foldl Sink.send (progress, s)).1 ∧ r'.Sound out e ∧
      SinkOnly r r' ((parts.flatMap Prod.snd).foldl Sink.send (progress, s)).2 ∧
      r'.stats.bytesWritten = r.stats.bytesWritten ∧
      ∃ kept gone, r.Regains r' (parts.flatMap Prod.snd) kept gone := by
  induction parts generalizing r s progress with
  | nil =>
    refine Ends.of_run (Fallible.runOn_pure _ _) ⟨rfl, h, ⟨?_, rfl, rfl, rfl⟩, rfl, [], [],
      List.Perm.refl _, fun kind => (List.append_nil _).symm, fun _ => rfl, rfl⟩
    rw [List.flatMap_nil, List.foldl_nil, Recorder.withSink, ← hs]
  | cons part rest ih =>
    obtain ⟨kind, buffers⟩ := part
    rw [List.flatMap_cons, List.map_append, List.append_assoc] at h
    unfold Recorder.emitParts
    refine Ends.after (runOn_foldlM_emitBuffer hs progress buffers) ?_
    have hsound : (r.withSink (buffers.foldl Sink.send (progress, s)).2).Sound
        (buffers.map Buffer.husk ++ ((rest.flatMap Prod.snd).map Buffer.husk ++ out)) e :=
      h.withSink _
    have hkind : ∀ b ∈ buffers, b.kind = kind := hk _ List.mem_cons_self
    refine (Sound.reclaim kind buffers hsound hkind).next ?_
    rintro r₁ ⟨hs₁, hpooled, hsur, kept, gone, hback, hstats⟩
    have hsink : r₁.sink = some (buffers.foldl Sink.send (progress, s)).2 :=
      sink_eq_of_surroundings_eq hsur
    refine (ih _ hs₁ (fun part hp => hk part (List.mem_cons_of_mem _ hp)) hsink).mono ?_
    rintro answer r' ⟨rfl, hs', hto, hwritten, kept', gone', hback'⟩
    have hback : r.Regains r₁ buffers kept gone :=
      hback.alike (space_withSink r _) rfl (fun _ => rfl) rfl
    rw [List.flatMap_cons, List.foldl_append]
    refine ⟨rfl, hs', ⟨?_, hto.pooled.trans hpooled, ?_, ?_⟩, ?_, kept ++ kept', gone ++ gone',
      hback.trans hback'⟩
    · exact hto.surroundings.trans (withSink_surroundings_eq hsur _)
    · rw [hto.cut, hstats]
      rfl
    · rw [hto.last, hstats]
      rfl
    · rw [hwritten, hstats]
      rfl

theorem runOn_flushSink {s : Sink} (hs : r.sink = some s) (progress : Emitted) :
    Fallible.runOn (flushSink progress) r =
      (.ok (Sink.passOn (progress, s)).1, r.withSink (Sink.passOn (progress, s)).2) := by
  have hself : r.withSink s = r := by
    rw [withSink, ← hs]
  cases hf : progress.failure with
  | some fault =>
    rw [Sink.passOn_of_failure (by rw [hf]; rfl), hself]
    simp [flushSink, hf]
  | none =>
    rcases hflush : s.flush with ⟨fault | _, s'⟩ <;>
      simp [flushSink, Sink.passOn, hf, hs, hflush, withSink]

theorem runOn_answer (progress : Emitted) (r : Recorder) :
    Fallible.runOn (match progress.failure with
      | some fault => throw fault
      | none => pure progress.written : Action Nat) r = (progress.answer, r) := by
  unfold Emitted.answer
  cases progress.failure <;> rfl

/-- **An emission**: the sink takes of the detached buffers what it does, and all of them come back
to their pools. -/
theorem Sound.emit {d : Detached} {s : Sink} (h : r.Sound (d.buffers.map Buffer.husk ++ out) e)
    (hk : Detached.Sorted d.parts) (hs : r.sink = some s) :
    Ends (emit d) r fun answer r' => answer = (s.deliver d.buffers).1.answer ∧ r'.Sound out e ∧
      SinkOnly r r' (s.deliver d.buffers).2 ∧
      r'.stats.bytesWritten = r.stats.bytesWritten + (s.deliver d.buffers).1.written ∧
      ∃ kept gone, r.Regains r' d.buffers kept gone := by
  unfold Recorder.emit
  refine (Sound.emitParts {} h hk hs).next ?_
  rintro r₁ ⟨hs₁, hto, hwritten, kept, gone, hback⟩
  refine Ends.after (runOn_flushSink hto.sink _) (Ends.after (Fallible.runOn_modify _ _) ?_)
  let count : Stats → Stats := fun st =>
    { st with bytesWritten := st.bytesWritten + (s.deliver d.buffers).1.written }
  have hspace : ∀ kind, ((r₁.withSink (s.deliver d.buffers).2).count count).space kind =
      r₁.space kind := fun kind => by cases kind <;> rfl
  refine Ends.of_run (runOn_answer _ _) ⟨rfl, (hs₁.withSink _).count rfl rfl, ?_, ?_, kept, gone,
    hback.alike (fun _ => rfl) rfl hspace rfl⟩
  · exact ⟨withSink_surroundings_eq hto.surroundings _, hto.pooled, hto.cut, hto.last⟩
  · exact congrArg (· + (s.deliver d.buffers).1.written) hwritten

/-! ## 3. What a drain sends -/

/-- The buffers that a sink takes from a drain. -/
def sentOf (d : Detached) (s : Sink) : List Buffer :=
  (laden d.buffers).take (s.granted (laden d.buffers).length)

/-- **The bytes that a drain puts into the sink**, if its first half detaches anything. -/
def sent (r : Recorder) (first : Action Detached) : Bytes :=
  match Fallible.runOn first r with
  | (.ok d, r₁) =>
    (r₁.sink.toList.flatMap (sentOf d)).flatMap fun b => b.committed.bytes
  | (.error _, _) => []

/-- **The entries that a drain detaches but does not append**, since the sink refused that call or
an earlier one of the drain. -/
def unsent (r : Recorder) (first : Action Detached) : List Bytes :=
  match Fallible.runOn first r with
  | (.ok d, r₁) =>
    (r₁.sink.toList.flatMap fun s =>
      (laden d.buffers).drop (s.granted (laden d.buffers).length)).flatMap Buffer.entries
  | (.error _, _) => []

theorem flatMap_laden {α : Type} {f : Buffer → List α} (h : ∀ b, b.isEmpty = true → f b = [])
    (buffers : List Buffer) : (laden buffers).flatMap f = buffers.flatMap f := by
  induction buffers with
  | nil => rfl
  | cons b rest ih =>
    by_cases hb : b.isEmpty = true
    · have hladen : laden (b :: rest) = laden rest := by simp [laden, hb]
      rw [hladen, List.flatMap_cons, h b hb, List.nil_append, ih]
    · have hladen : laden (b :: rest) = b :: laden rest := by simp [laden, hb]
      rw [hladen, List.flatMap_cons, List.flatMap_cons, ih]

theorem entries_of_isEmpty {b : Buffer} (h : b.isEmpty = true) : b.entries = [] := by
  rw [Buffer.entries, Buffer.isEmpty_iff.1 h, Entry.split_nil]

theorem split_flatMap {buffers : List Buffer}
    (h : ∀ b ∈ buffers, Entry.IsRow b.committed.bytes) :
    Entry.IsRow (buffers.flatMap fun b => b.committed.bytes) ∧
      Entry.split (buffers.flatMap fun b => b.committed.bytes) =
        buffers.flatMap Buffer.entries := by
  induction buffers with
  | nil => exact ⟨Entry.isRow_nil, Entry.split_nil⟩
  | cons b rest ih =>
    have hb := h b List.mem_cons_self
    obtain ⟨hrow, hsplit⟩ := ih fun x hx => h x (List.mem_cons_of_mem _ hx)
    rw [List.flatMap_cons, List.flatMap_cons]
    exact ⟨hb.append hrow, by rw [hb.split_append, hsplit]; rfl⟩

theorem flatten_entries {buffers : List Buffer} (h : ∀ b ∈ buffers, Entry.IsRow b.committed.bytes) :
    (buffers.flatMap Buffer.entries).flatten = buffers.flatMap fun b => b.committed.bytes := by
  obtain ⟨hrow, hsplit⟩ := split_flatMap h
  rw [← hsplit, hrow]

theorem Sound.isRow {b : Buffer} (h : r.Sound out e) (hb : b ∈ r.pooled ++ out) :
    Entry.IsRow b.committed.bytes := by
  by_cases hc : b.isEmpty = true
  · rw [Buffer.isEmpty_iff.1 hc]
    exact Entry.isRow_nil
  · have hc : b.isEmpty = false := by simpa using hc
    exact (h.order _ (List.mem_filterMap.2 ⟨b, hb, Buffer.load?_of_not_isEmpty hc⟩)).row

/-- **The second half of a drain**: what was detached is sent or stays unsent, entry by entry. -/
theorem ends_drain {first : Action Detached} {d : Detached} {r₁ : Recorder} {s : Sink}
    (hrun : Fallible.runOn first r = (.ok d, r₁)) (h : r₁.Sound (d.buffers ++ out) e)
    (hk : Detached.Sorted d.parts) (hs : r₁.sink = some s) :
    Ends (do let d ← first; emit d) r fun answer r' => ∃ s', r'.Sound out e ∧ SinkOnly r₁ r' s' ∧
      Settles r₁ (d.buffers ++ out) r' out
        { accepted := r.sent first, unsent := r.unsent first } ∧
      (s.Reliable → s'.Reliable ∧ answer = .ok (usedBytes d.buffers) ∧
        r.sent first = (laden d.buffers).flatMap fun b => b.committed.bytes) := by
  have hsent : r.sent first = (sentOf d s).flatMap fun b => b.committed.bytes := by
    rw [sent, hrun]
    simp only [hs, Option.toList_some, List.flatMap_cons, List.flatMap_nil, List.append_nil]
  have hunsent : r.unsent first =
      ((laden d.buffers).drop (s.granted (laden d.buffers).length)).flatMap Buffer.entries := by
    rw [unsent, hrun]
    simp only [hs, Option.toList_some, List.flatMap_cons, List.flatMap_nil, List.append_nil]
  have hrows : ∀ b ∈ sentOf d s, Entry.IsRow b.committed.bytes := by
    intro b hb
    have hm := (List.mem_filter.1 (List.mem_of_mem_take hb)).1
    exact h.isRow (List.mem_append_right _ (List.mem_append_left _ hm))
  obtain ⟨hrow, hsplit⟩ := split_flatMap hrows
  have hdelivers := s.delivers d.buffers
  refine Ends.after hrun ((h.husks.emit hk hs).mono ?_)
  rintro answer r' ⟨rfl, hs', honly, -, -⟩
  rw [hsent, hunsent]
  refine ⟨_, hs', honly, ⟨?_, hrow, ?_, honly.cut, honly.last⟩, ?_⟩
  · intro x
    have hall : ((sentOf d s).flatMap Buffer.entries).count x +
        (((laden d.buffers).drop (s.granted (laden d.buffers).length)).flatMap
          Buffer.entries).count x = (d.buffers.flatMap Buffer.entries).count x := by
      rw [← flatMap_laden (fun _ => entries_of_isEmpty) d.buffers, ← List.count_append,
        ← List.flatMap_append, sentOf, List.take_append_drop]
    have hnone : (Published.entries {}).count x = 0 := rfl
    rw [hsplit, hnone]
    simp only [entries, honly.pooled, List.flatMap_append, List.count_append, List.count_nil]
      at hall ⊢
    omega
  · rw [chunk, chunk, honly.sink, hs]
    simpa [sentOf, Sink.share] using hdelivers.content
  · intro hr
    obtain ⟨hr', hnone, hwritten⟩ := hdelivers.reliable hr
    refine ⟨hr', by rw [Emitted.answer, hnone, hwritten], ?_⟩
    rw [sentOf, Sink.granted_of_reliable hr, List.take_length]

end Recorder

end TraceRecorder
