/-
# Lanes

Committed entries wait for a drain in lanes: one lane for the global pool, one for the pool of
virtual threads and one for each carrier thread.  A lane is a queue of the entries in full buffers,
in the order in which the buffers were registered; on the lane of a carrier thread the entries that
are kept in its bound buffer stand behind the queue (`Recorder.line`).

Leases leave all lanes alone.  A writer works on the lane of its own kind and thread, and on no
other one (`Shifts`):

* `Sound.handOff_shifts`: the entries of a buffer are queued when its lease ends;
* `Sound.acquire_shifts`: what a thread kept goes along with a new lease, or is queued;
* `Sound.release_shifts`: what a writer held is queued, or kept in place of what was kept before.

So nothing ever overtakes on a lane, as long as no two leases of one thread overlap.
-/
import TraceRecorder.Proofs.Recorder.Rotations

namespace TraceRecorder

open Fallible (Ends Keeps)

/-! ## 1. Lanes and lines -/

/-- Where entries queue up. -/
inductive Lane where
  | global
  | carrier (thread : ThreadId)
  | virtual
  deriving DecidableEq

namespace Lane

/-- The pool of a lane. -/
def kind : Lane → BufferKind
  | global => .global
  | carrier _ => .threadLocal
  | virtual => .virtualThreadLocal

/-- The lane of those who write into a pool from a thread. -/
def of (kind : BufferKind) (thread : ThreadId) : Lane :=
  match kind with
  | .global => global
  | .threadLocal => carrier thread
  | .virtualThreadLocal => virtual

/-- Which of the buffers of its pool are on a lane. -/
def owns (ℓ : Lane) (b : Buffer) : Bool :=
  match ℓ with
  | carrier thread => b.owner == .thread thread
  | _ => true

@[simp] theorem kind_of (kind : BufferKind) (thread : ThreadId) : (of kind thread).kind = kind := by
  cases kind <;> rfl

end Lane

/-- **The buffer is on a lane.** -/
structure Buffer.On (b : Buffer) (ℓ : Lane) : Prop where
  kind : b.kind = ℓ.kind
  owns : ℓ.owns b = true

theorem Buffer.on_of {b : Buffer} {kind : BufferKind} {thread : ThreadId} (hk : b.kind = kind)
    (ho : b.kind = .threadLocal → b.owner = .thread thread) : b.On (.of kind thread) := by
  subst hk
  refine ⟨(Lane.kind_of _ _).symm, ?_⟩
  cases hk : b.kind with
  | global => rfl
  | threadLocal => exact beq_iff_eq.2 (ho hk)
  | virtualThreadLocal => rfl

/-- The entries that wait on a lane. -/
@[ext]
structure Line where
  /-- In full buffers. -/
  queue : List Bytes
  /-- In the buffer that is bound to the thread of the lane. -/
  kept : List Bytes

namespace Line

/-- The line with more entries in the queue. -/
def push (l : Line) (es : List Bytes) : Line := { l with queue := l.queue ++ es }

/-- The line with the kept entries in the queue. -/
def yield (l : Line) : Line := ⟨l.queue ++ l.kept, []⟩

@[simp] theorem push_nil (l : Line) : l.push [] = l := by rw [push, List.append_nil]

@[simp] theorem push_push (l : Line) (xs ys : List Bytes) :
    (l.push xs).push ys = l.push (xs ++ ys) := by
  rw [push, push, push, List.append_assoc]

end Line

namespace Recorder

/-- **The entries that wait on a lane.** -/
def line (r : Recorder) (ℓ : Lane) : Line where
  queue := ((r.space ℓ.kind).full.reverse.filter ℓ.owns).flatMap Buffer.entries
  kept :=
    match ℓ with
    | .carrier thread => (r.threadLocal.bound? thread).toList.flatMap Buffer.entries
    | _ => []

theorem kept_eq_nil (r : Recorder) {ℓ : Lane} (h : ℓ.kind ≠ .threadLocal) :
    (r.line ℓ).kept = [] := by
  cases ℓ with
  | carrier => exact absurd rfl h
  | _ => rfl

def visible (r : Recorder) (kind : BufferKind) : Space := (r.space kind).visible

theorem line_eq_of_visible_eq {r r' : Recorder} (h : r'.visible = r.visible) (ℓ : Lane) :
    r'.line ℓ = r.line ℓ := by
  have hfull : ∀ kind, (r'.space kind).full = (r.space kind).full :=
    fun kind => (congrArg Space.full (congrFun h kind) :)
  have hbindings : r'.threadLocal.bindings = r.threadLocal.bindings :=
    (congrArg Space.bindings (congrFun h .threadLocal) :)
  refine Line.ext ?_ ?_
  · simp only [line, hfull]
  · cases ℓ with
    | carrier thread => simp only [line, Space.bound?, hbindings]
    | _ => rfl

/-- **The line of one lane changes**, and no other lane and no other pool. -/
structure Shifts (r : Recorder) (ℓ : Lane) (l : Line) (r' : Recorder) : Prop where
  line : r'.line ℓ = l
  others : ∀ ℓ', ℓ' ≠ ℓ → r'.line ℓ' = r.line ℓ'
  pools : ∀ kind, kind ≠ ℓ.kind → r'.visible kind = r.visible kind

namespace Shifts

variable {r r' r'' : Recorder} {ℓ : Lane} {l l' : Line}

theorem refl (r : Recorder) (ℓ : Lane) : Shifts r ℓ (r.line ℓ) r :=
  ⟨rfl, fun _ _ => rfl, fun _ _ => rfl⟩

/-- **One change after the other.** -/
theorem trans (h : Shifts r ℓ l r') (h' : Shifts r' ℓ l' r'') : Shifts r ℓ l' r'' where
  line := h'.line
  others ℓ' hne := (h'.others ℓ' hne).trans (h.others ℓ' hne)
  pools kind hne := (h'.pools kind hne).trans (h.pools kind hne)

theorem alike (h : Shifts r ℓ l r') (hv : r''.visible = r'.visible) : Shifts r ℓ l r'' where
  line := (line_eq_of_visible_eq hv ℓ).trans h.line
  others ℓ' hne := (line_eq_of_visible_eq hv ℓ').trans (h.others ℓ' hne)
  pools kind hne := (congrFun hv kind).trans (h.pools kind hne)

theorem of_visible_eq (hv : r'.visible = r.visible) (ℓ : Lane) : Shifts r ℓ (r.line ℓ) r' :=
  (refl r ℓ).alike hv

end Shifts

end Recorder

/-! ## 2. Leases -/

namespace Recorder

theorem visible_setSpace (r : Recorder) {kind : BufferKind} {s : Space}
    (h : s.visible = (r.space kind).visible) : (r.setSpace kind s).visible = r.visible := by
  funext other
  by_cases hk : other = kind
  · subst hk
    rw [visible, space_setSpace_self, h, visible]
  · rw [visible, space_setSpace_of_ne r s hk, visible]

theorem visible_count (r : Recorder) (f : Stats → Stats) : (r.count f).visible = r.visible := by
  funext kind
  rw [visible, space_count, visible]

theorem visible_moveEpoch (r : Recorder) (f : EpochController → EpochController) :
    (r.moveEpoch f).visible = r.visible := by
  funext kind
  rw [visible, space_moveEpoch, visible]

theorem keeps_visible_tally (f : Stats → Stats) : Keeps visible (tally f) :=
  .update fun r => visible_count r f

theorem keeps_visible_onSpace {α : Type} {kind : BufferKind} {x : SpaceAction α}
    (h : Keeps Space.visible x) : Keeps visible (onSpace kind x) :=
  fun r => visible_setSpace r (h (r.space kind))

theorem keeps_visible_lease (kind : BufferKind) (size : Nat) (e : Epoch) (thread : ThreadId) :
    Keeps visible (lease kind size e thread) :=
  keeps_lease_of (fun grants => keeps_visible_onSpace (Space.keeps_acquire grants _ _ _))
    fun _ => keeps_visible_tally _

theorem keeps_visible_reclaim (kind : BufferKind) (buffers : List Buffer) :
    Keeps visible (reclaim kind buffers) :=
  (keeps_visible_onSpace (Space.keeps_reclaim buffers)).bind fun _ => keeps_visible_tally _

variable {r r' : Recorder} {out : List Buffer} {b : Buffer} {e : Epoch} {ℓ : Lane}
  {thread : ThreadId} {kind : BufferKind}

/-! ## 3. Buffers that come back -/

/-- A buffer is registered on its lane. -/
theorem shifts_register {s : Space} (hfull : s.full = b :: (r.space ℓ.kind).full)
    (hbindings : s.bindings = (r.space ℓ.kind).bindings) (ho : ℓ.owns b = true) :
    Shifts r ℓ ((r.line ℓ).push b.entries) (r.setSpace ℓ.kind s) := by
  have hkept : ∀ thread, (r.setSpace ℓ.kind s).threadLocal.bound? thread =
      r.threadLocal.bound? thread := by
    intro thread
    have hb : (r.setSpace ℓ.kind s).threadLocal.bindings = r.threadLocal.bindings := by
      cases ℓ with
      | carrier => exact hbindings
      | _ => rfl
    rw [Space.bound?, hb, Space.bound?]
  refine ⟨?_, ?_, ?_⟩
  · refine Line.ext ?_ ?_
    · simp [line, Line.push, hfull, ho]
    · cases ℓ with
      | carrier thread => exact congrArg (·.toList.flatMap Buffer.entries) (hkept thread)
      | _ => rfl
  · intro ℓ' hne
    refine Line.ext ?_ ?_
    · by_cases hk : ℓ'.kind = ℓ.kind
      · -- Two lanes of one pool are those of two threads.
        have howns : ℓ'.owns b = false := by
          cases ℓ <;> cases ℓ' <;> first | exact absurd rfl hne | cases hk
          rename_i thread thread'
          have hown : b.owner = .thread thread := beq_iff_eq.1 ho
          refine Bool.eq_false_iff.2 fun hown' => hne ?_
          have hown' : b.owner = .thread thread' := beq_iff_eq.1 hown'
          rw [hown] at hown'
          cases hown'
          rfl
        simp [line, hfull, howns, hk]
      · simp only [line, space_setSpace_of_ne r s hk]
    · cases ℓ' with
      | carrier thread => exact congrArg (·.toList.flatMap Buffer.entries) (hkept thread)
      | _ => rfl
  · intro other hne
    rw [visible, space_setSpace_of_ne r s hne, visible]

/-- **The entries of a buffer are queued when its lease ends**, behind all that waits on its lane,
and no other lane changes. -/
theorem Sound.handOff_shifts (h : r.Sound (b :: out) e) (hb : b.On ℓ) :
    Ends (Recorder.handOff b) r fun _ r' => Shifts r ℓ ((r.line ℓ).push b.entries) r' := by
  unfold Recorder.handOff
  by_cases hempty : b.isEmpty = true
  · rw [if_pos hempty, entries_of_isEmpty hempty, Line.push_nil]
    exact ((keeps_visible_reclaim _ _).ends r).mono fun _ _ hv => .of_visible_eq hv ℓ
  · rw [if_neg hempty]
    obtain ⟨a, hrun, -⟩ := h.pool_cons.registerFull (Bool.eq_false_iff.2 hempty)
    refine Ends.of_run (a := .ok ())
      (by simp only [registerFull, onSpace, Fallible.runOn_zoom, hrun]; rfl) ?_
    have hshifts : Shifts r ℓ ((r.line ℓ).push b.rewind.retire.entries) (r.setSpace ℓ.kind
        { r.space b.kind with arena := a, full := b.rewind.retire :: (r.space b.kind).full }) :=
      shifts_register (by rw [hb.kind]) (by rw [hb.kind]) (by cases ℓ <;> exact hb.owns)
    rw [← hb.kind] at hshifts
    exact hshifts

/-- The binding of a thread is exchanged. -/
theorem shifts_bindings {s : Space} {o : Option Buffer} (hfull : s.full = r.threadLocal.full)
    (hself : s.bound? thread = o)
    (hothers : ∀ t, t ≠ thread → s.bound? t = r.threadLocal.bound? t) :
    Shifts r (.carrier thread)
      ⟨(r.line (.carrier thread)).queue, o.toList.flatMap Buffer.entries⟩
      { r with threadLocal := s } := by
  have hqueue : ∀ ℓ, ({ r with threadLocal := s } : Recorder).line ℓ = ⟨(r.line ℓ).queue,
      ({ r with threadLocal := s } : Recorder).line ℓ |>.kept⟩ := by
    intro ℓ
    refine Line.ext ?_ rfl
    cases ℓ with
    | carrier t => simp only [line, Lane.kind, space, hfull]
    | _ => rfl
  refine ⟨?_, ?_, ?_⟩
  · rw [hqueue]
    refine Line.ext rfl ?_
    exact congrArg (·.toList.flatMap Buffer.entries) hself
  · intro ℓ' hne
    rw [hqueue]
    refine Line.ext rfl ?_
    cases ℓ' with
    | carrier t =>
      exact congrArg (·.toList.flatMap Buffer.entries) (hothers t fun heq => hne (heq ▸ rfl))
    | _ => rfl
  · intro other hne
    cases other with
    | threadLocal => exact absurd rfl hne
    | _ => rfl

theorem shifts_bind (r : Recorder) (thread : ThreadId) (o : Option Buffer) :
    Shifts r (.carrier thread)
      ⟨(r.line (.carrier thread)).queue, o.toList.flatMap Buffer.entries⟩
      { r with threadLocal := r.threadLocal.bind thread o } := by
  refine shifts_bindings rfl ?_ ?_
  · simp [Space.bound?, Space.bind]
  · intro t hne
    simp [Space.bound?, Space.bind, Dict.find?_insert_of_ne _ _ hne]

theorem shifts_unbind (r : Recorder) (thread : ThreadId) :
    Shifts r (.carrier thread) ⟨(r.line (.carrier thread)).queue, []⟩
      { r with threadLocal := r.threadLocal.unbind thread } := by
  refine shifts_bindings (o := none) rfl ?_ ?_
  · simp [Space.bound?, Space.unbind]
  · intro t hne
    simp [Space.bound?, Space.unbind, Dict.find?_erase_of_ne _ hne]

/-! ## 4. Leases on a lane -/

end Recorder

namespace Line

/-- **A lease begins on a lane**: what was kept goes along with it, or is queued. -/
inductive Begins (l : Line) : Line → List Bytes → Prop
  | again : l.Begins ⟨l.queue, []⟩ l.kept
  | fresh : l.Begins l.yield []

/-- **A lease ends on a lane**: the entries of its buffer are queued, or kept. -/
inductive Closes (l : Line) (es : List Bytes) : Line → Prop
  | full : l.Closes es (l.push es)
  | bound : l.Closes es ⟨l.queue ++ l.kept, es⟩
  /-- Two leases have ended, the second one without entries. -/
  | both : l.Closes es (l.push es).yield

end Line

namespace Recorder

variable {r r' : Recorder} {out : List Buffer} {b : Buffer} {e : Epoch} {ℓ : Lane}
  {thread : ThreadId} {kind : BufferKind}

theorem entries_of_clean (h : b.Clean) : b.entries = [] := by
  rw [Buffer.entries, h.committed]
  exact Entry.split_nil

theorem Sound.lease_shifts (h : r.Sound out e) (kind : BufferKind) (size : Nat) (thread : ThreadId)
    (ℓ : Lane) :
    Ends (Recorder.lease kind size e thread) r fun answer r' =>
      Shifts r ℓ (r.line ℓ) r' ∧ ∀ b, answer = .ok b → b.entries = [] := by
  refine (((keeps_visible_lease kind size e thread).ends r).and (h.lease kind size thread)).mono ?_
  rintro answer r' ⟨hv, hpost⟩
  refine ⟨.of_visible_eq hv ℓ, ?_⟩
  rintro b rfl
  exact entries_of_clean hpost.2.2.clean

theorem Sound.on_of_bound (h : r.Sound out e) (hb : r.threadLocal.bound? thread = some b) :
    b.On (.carrier thread) := by
  obtain ⟨_, ⟨⟩, -, hkept⟩ := (h.takeBinding thread).run_eq rfl
  obtain ⟨hk, hkept⟩ := hkept b hb
  exact Buffer.on_of hk fun _ => hkept.owner

/-- **A writer's first buffer**: what its thread kept goes along, or is queued.  It goes along if
the bound buffer has room enough, and is queued if that is handed off for a fresh one, also if there
is none to be had then. -/
theorem Sound.acquire_shifts (h : r.Sound out e) (thread : ThreadId) (kind : BufferKind)
    {duringDrain : Bool} (he : Fallible.runOn (leaseEpoch duringDrain) r = (.ok e, r))
    (size : Nat) :
    Ends (Recorder.acquire thread kind duringDrain size) r fun answer r' => match answer with
      | .ok b => ∃ l, (r.line (.of kind thread)).Begins l b.entries ∧
          Shifts r (.of kind thread) l r'
      | .error _ => Shifts r (.of kind thread) (r.line (.of kind thread)).yield r' := by
  -- Once nothing is kept any more, a fresh buffer is taken.
  have hfresh : ∀ {r₁ : Recorder}, r₁.Sound out e →
      Shifts r (.of kind thread) (r.line (.of kind thread)).yield r₁ →
      Ends (Recorder.lease kind size e thread) r₁ fun answer r' => match answer with
        | .ok b => ∃ l, (r.line (.of kind thread)).Begins l b.entries ∧
            Shifts r (.of kind thread) l r'
        | .error _ => Shifts r (.of kind thread) (r.line (.of kind thread)).yield r' := by
    intro r₁ hs hshifts
    refine (hs.lease_shifts kind size thread (.of kind thread)).mono ?_
    rintro (fault | b) r' ⟨hsame, hnone⟩
    · exact hshifts.line ▸ hshifts.trans hsame
    · rw [hshifts.line] at hsame
      refine ⟨_, ?_, hshifts.trans hsame⟩
      rw [hnone b rfl]
      exact .fresh
  have hyield : ∀ {ℓ : Lane}, (r.line ℓ).kept = [] → (r.line ℓ).yield = r.line ℓ := by
    intro ℓ hnil
    exact Line.ext (by rw [Line.yield, hnil, List.append_nil]) hnil.symm
  unfold Recorder.acquire
  refine Ends.after he ?_
  by_cases hk : kind = .threadLocal
  · subst hk
    rw [if_pos rfl]
    obtain ⟨_, ⟨⟩, ht, -⟩ := (h.takeBinding thread).run_eq rfl
    have hbind := shifts_bind r thread none
    refine Ends.after rfl ?_
    cases hbound : r.threadLocal.bound? thread with
    | none =>
      rw [hbound] at ht
      refine hfresh ht.sound ?_
      have hnil : (r.line (.carrier thread)).kept = [] := by simp [line, hbound]
      rw [show Lane.of .threadLocal thread = .carrier thread from rfl, Line.yield, hnil,
        List.append_nil]
      exact hbind
    | some b =>
      rw [hbound] at ht
      have hkept : (r.line (.carrier thread)).kept = b.entries := by simp [line, hbound]
      dsimp only
      split
      · refine Ends.of_run (Fallible.runOn_pure _ _) ⟨_, ?_, hbind⟩
        rw [← hkept]
        exact .again
      · have hhand := (Sound.handOff ht.sound).and
          (ht.sound.handOff_shifts (h.on_of_bound hbound))
        refine hhand.bind ?_ ?_
        · rintro _ r₂ ⟨⟨-, ht₂⟩, hshifts⟩
          refine hfresh ht₂.sound ?_
          rw [hbind.line] at hshifts
          have hall := hbind.trans hshifts
          rwa [← hkept] at hall
        · rintro _ _ ⟨⟨hok, -⟩, -⟩
          cases hok
  · rw [if_neg hk]
    refine hfresh h ?_
    rw [hyield (r.kept_eq_nil (by rwa [Lane.kind_of]))]
    exact .refl r _

/-- **A buffer that is exchanged for a larger one leaves its entries in the queue.** -/
theorem Sound.renew_shifts {old : Buffer} (h : r.Sound (old :: out) e) (he : old.epoch = e)
    (ho : old.On (.of kind thread)) (size : Nat) :
    Ends (Recorder.renew old thread size kind) r fun answer r' => Refused answer ∨
      (Shifts r (.of kind thread) ((r.line (.of kind thread)).push old.entries) r' ∧
        ∀ b, answer = .ok b → b.entries = []) := by
  subst he
  have hlease := (h.lease kind (r.options.renewalRequest kind (old.needed size)) thread).and
    (h.lease_shifts kind _ thread (.of kind thread))
  have hrewind : old.rewind.On (.of kind thread) := ⟨ho.kind, by cases kind <;> exact ho.owns⟩
  refine (h.renews thread size kind).mono ?_
  intro answer r' hrenews
  cases hrenews with
  | refused _ _ hold =>
    have hshifts := (h.rewind.sound.handOff_shifts hrewind).run_eq hold
    exact .inr ⟨hshifts, fun _ hok => by cases hok⟩
  | ended _ hf => exact .inl ⟨_, rfl, hf⟩
  | small hrun _ hold hback =>
    obtain ⟨⟨ht, hk, hb⟩, hsame, hnone⟩ := hlease.run_eq hrun
    have hsound := (ht.perm (List.Perm.swap _ _ _)).sound
    obtain ⟨-, ht₂⟩ := (Sound.handOff hsound).run_eq hold
    have hshifts := (hsound.handOff_shifts ho).run_eq hold
    have hshifts' :=
      (ht₂.sound.handOff_shifts (Buffer.on_of hk (hb.ready hk).owner)).run_eq hback
    rw [hsame.line] at hshifts
    rw [hshifts.line, hnone _ rfl, Line.push_nil] at hshifts'
    exact .inr ⟨(hsame.trans hshifts).trans hshifts', fun _ hok => by cases hok⟩
  | @grown fresh _ _ hrun hcarry hold =>
    obtain ⟨⟨ht, -, hb⟩, hsame, hnone⟩ := hlease.run_eq hrun
    obtain ⟨-, hmoved⟩ := ht.sound.carry hb.clean hcarry
    have hshifts := (hmoved.sound.handOff_shifts hrewind).run_eq hold
    rw [hsame.line] at hshifts
    refine .inr ⟨(hsame.trans hshifts).alike (visible_count _ _), ?_⟩
    rintro _ ⟨⟩
    exact hnone fresh rfl

/-- **An entry is queued behind those that its buffer held.** -/
theorem Sound.publish_shifts {old : Buffer} (h : r.Sound (old :: out) e) (he : old.epoch = e)
    (hw : Entry.Whole old.pending.bytes) (ho : old.On ℓ) :
    Ends (Recorder.publish old old.pending.length) r fun _ r' =>
      Shifts r ℓ ((r.line ℓ).push (old.entries ++ [old.pending.bytes])) r' := by
  obtain ⟨hs, hne, -⟩ := h.commitAll he hw
  have hon : old.commitAll.On ℓ := ⟨ho.kind, by cases ℓ <;> exact ho.owns⟩
  unfold Recorder.publish
  rw [commit_length_pending, registerFull_eq_handOff hne, ← h.entries_commitAll hw]
  refine (hs.handOff_shifts hon).bind ?_ ?_
  · rintro _ r₁ hshifts
    exact Ends.of_run (Fallible.runOn_modify _ _) (hshifts.alike (visible_count _ _))
  · rintro _ r₁ hshifts
    exact hshifts

/-- **A flush queues all that a writer holds**, and goes on without entries. -/
theorem Sound.flush_shifts {old : Buffer} (h : r.Sound (old :: out) e) (he : old.epoch = e)
    (hw : Entry.Whole old.pending.bytes) (ho : old.On ℓ) (requested : Nat) (thread : ThreadId) :
    Ends (Recorder.flush old old.pending.length requested thread) r fun answer r' =>
      Shifts r ℓ ((r.line ℓ).push (old.entries ++ [old.pending.bytes])) r' ∧
        ∀ b, answer = .ok b → b.entries = [] := by
  rw [flush_eq]
  refine ((h.publish he hw).also (h.publish_shifts he hw ho)).next ?_
  rintro r₁ ⟨ht, hshifts⟩
  rw [he]
  refine (ht.sound.lease_shifts old.kind requested thread ℓ).mono ?_
  rintro answer r' ⟨hsame, hnone⟩
  rw [hshifts.line] at hsame
  exact ⟨hshifts.trans hsame, hnone⟩

/-- **A writer gives its buffer back**: its entries are queued, or kept. -/
theorem Sound.release_shifts (h : r.Sound (b :: out) e)
    (ho : b.kind = .threadLocal → b.owner = .thread thread) :
    Ends (Recorder.release b thread) r fun _ r' =>
      ∃ l, (r.line (.of b.kind thread)).Closes b.entries l ∧
        Shifts r (.of b.kind thread) l r' := by
  have hrewind := h.rewind.sound
  have hon : b.rewind.On (.of b.kind thread) := Buffer.on_of rfl ho
  unfold Recorder.release
  refine Ends.after (Fallible.runOn_get r) ?_
  by_cases hc : b.rewind.kind = .threadLocal ∧ b.rewind.epoch = r.epoch.current ∧
      keepBoundRoom ≤ b.rewind.free
  · have hkind : b.kind = .threadLocal := hc.1
    rw [hkind]
    have hbind := Sound.bind (o := some b.rewind) thread hrewind (by
      rintro _ ⟨⟩
      exact ⟨hc.1, ho hc.1, rfl, hc.2.2⟩)
    have hshifts := shifts_bind r thread (some b.rewind)
    have hline : ([b.rewind].flatMap Buffer.entries) = b.entries := List.append_nil _
    rw [Option.toList_some, hline] at hshifts
    rw [if_pos hc]
    refine Ends.after (Fallible.runOn_set _ _) ?_
    cases hd : r.threadLocal.bound? thread with
    | none =>
      have hnil : (r.line (.carrier thread)).kept = [] := by simp [line, hd]
      refine Ends.of_run (Fallible.runOn_pure _ _) ⟨_, .bound, ?_⟩
      rw [show Lane.of .threadLocal thread = .carrier thread from rfl, hnil, List.append_nil]
      exact hshifts
    | some displaced =>
      rw [hd] at hbind
      have hkept : (r.line (.carrier thread)).kept = displaced.entries := by simp [line, hd]
      refine (hbind.sound.handOff_shifts (h.on_of_bound hd)).mono ?_
      rintro _ r' hhand
      refine ⟨_, .bound, ?_⟩
      rw [hshifts.line] at hhand
      rw [show Lane.of .threadLocal thread = .carrier thread from rfl, hkept]
      exact hshifts.trans hhand
  · rw [if_neg hc]
    refine (hrewind.handOff_shifts hon).mono ?_
    rintro _ r' hshifts
    exact ⟨_, .full, hshifts⟩

/-- **A thread that ends leaves what it kept in the queue.** -/
theorem Sound.releaseThread_shifts (h : r.Sound out e) (thread : ThreadId) :
    Ends (Recorder.releaseThread thread) r fun _ r' =>
      Shifts r (.carrier thread) (r.line (.carrier thread)).yield r' := by
  have ht := h.unbind thread
  have hshifts := shifts_unbind r thread
  unfold Recorder.releaseThread
  refine Ends.after (Fallible.runOn_get r) (Ends.after (Fallible.runOn_set _ _) ?_)
  cases hd : r.threadLocal.bound? thread with
  | none =>
    have hnil : (r.line (.carrier thread)).kept = [] := by simp [line, hd]
    refine Ends.of_run (Fallible.runOn_pure _ _) ?_
    rw [Line.yield, hnil, List.append_nil]
    exact hshifts
  | some b =>
    rw [hd] at ht
    have hkept : (r.line (.carrier thread)).kept = b.entries := by simp [line, hd]
    refine (ht.sound.handOff_shifts (h.on_of_bound hd)).mono ?_
    rintro _ r' hhand
    rw [hshifts.line] at hhand
    rw [Line.yield, hkept]
    exact hshifts.trans hhand

end Recorder

end TraceRecorder
