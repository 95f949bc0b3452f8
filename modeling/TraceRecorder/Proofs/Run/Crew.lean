/-
# Open writers and the commits that wait

While writers are open, the entries that were committed since the last drain wait on the lanes, or
in the buffers that the writers hold.  Checkpoints are numbered in the order in which they begin,
and each commit is written down with its lane and the number of its checkpoint.

Three things are true of the commits that wait, whatever writers and the recorder do next:

* `Numbered`: the commits of a checkpoint are all on one lane, that of its writer;
* `InOrder`: on a lane where no two writers overlap, what waits there and what its writer holds are
  the commits of the lane, in order;
* `Pieced`: the commits of one checkpoint stand one behind the other on their lane, whether or not
  other writers overlap.

Each has one lemma for every way in which a lane changes: a writer begins, it goes on, it is gone,
it leaves, and the recorder writes a checkpoint of its own.
-/
import TraceRecorder.Proofs.Recorder.Passes

namespace TraceRecorder

open Fallible (Ends)

/-! ## 1. Commits -/

/-- An entry that is committed: its lane, and the number of its checkpoint. -/
structure Commit where
  lane : Lane
  checkpoint : Nat
  entry : Bytes
  deriving DecidableEq

namespace Commit

/-- The entries that were committed on a lane, in order. -/
def on (ℓ : Lane) (log : List Commit) : List Bytes := (log.filter fun c => c.lane = ℓ).map entry

def pieces (checkpoint : Nat) (log : List Commit) : List Bytes :=
  (log.filter fun c => c.checkpoint = checkpoint).map entry

def all (ℓ : Lane) (checkpoint : Nat) (es : List Bytes) : List Commit := es.map (⟨ℓ, checkpoint, ·⟩)

variable {ℓ ℓ' : Lane} {log log' : List Commit} {a b : Nat} {es : List Bytes}

@[simp] theorem on_append : on ℓ (log ++ log') = on ℓ log ++ on ℓ log' := by
  simp [on]

@[simp] theorem pieces_append : pieces a (log ++ log') = pieces a log ++ pieces a log' := by
  simp [pieces]

@[simp] theorem mem_all {c : Commit} :
    c ∈ all ℓ a es ↔ c.lane = ℓ ∧ c.checkpoint = a ∧ c.entry ∈ es := by
  obtain ⟨ℓ', b, e⟩ := c
  simp only [all, List.mem_map, Commit.mk.injEq]
  constructor
  · rintro ⟨e', he, rfl, rfl, rfl⟩
    exact ⟨rfl, rfl, he⟩
  · rintro ⟨rfl, rfl, he⟩
    exact ⟨e, he, rfl, rfl, rfl⟩

@[simp] theorem on_all_self : on ℓ (all ℓ a es) = es := by
  simp [on, all, Function.comp_def, List.filter_map]

theorem on_all_of_ne (h : ℓ' ≠ ℓ) : on ℓ' (all ℓ a es) = [] := by
  simp [on, all, Function.comp_def, List.filter_map, Ne.symm h]

@[simp] theorem pieces_all_self : pieces a (all ℓ a es) = es := by
  simp [pieces, all, Function.comp_def, List.filter_map]

theorem pieces_all_of_ne (h : b ≠ a) : pieces b (all ℓ a es) = [] := by
  simp [pieces, all, Function.comp_def, List.filter_map, Ne.symm h]

theorem pieces_eq_nil (h : ∀ c ∈ log, c.checkpoint ≠ a) : pieces a log = [] := by
  rw [pieces, List.map_eq_nil_iff, List.filter_eq_nil_iff]
  exact fun c hc => by simpa using h c hc

end Commit

/-! ## 2. Numbers -/

/-- An open writer with the number of its checkpoint. -/
abbrev Crew := List (Writer × Nat)

variable {crew : Crew} {begun : Nat} {log : List Commit}

/-- **Checkpoints have numbers of their own**, and all commits of one are on the lane of its
writer. -/
structure Numbered (crew : Crew) (begun : Nat) (log : List Commit) : Prop where
  fresh : ∀ m ∈ crew, m.2 < begun
  nodup : (crew.map Prod.snd).Nodup
  numbered : ∀ c ∈ log, c.checkpoint < begun
  lanes : ∀ c ∈ log, ∀ c' ∈ log, c.checkpoint = c'.checkpoint → c.lane = c'.lane
  own : ∀ c ∈ log, ∀ m ∈ crew, m.2 = c.checkpoint → m.1.lane = c.lane

namespace Numbered

/-- One more writer is open. -/
theorem start (h : Numbered crew begun log) (w : Writer) :
    Numbered (crew ++ [(w, begun)]) (begun + 1) log where
  fresh m hm := by
    rcases List.mem_append.1 hm with hm | hm
    · exact Nat.lt_succ_of_lt (h.fresh m hm)
    · rw [List.mem_singleton.1 hm]
      exact Nat.lt_succ_self _
  nodup := by
    rw [List.map_append, List.nodup_append]
    refine ⟨h.nodup, by simp, ?_⟩
    rintro a ha b hb rfl
    obtain ⟨m, hm, rfl⟩ := List.mem_map.1 ha
    have hlt := h.fresh m hm
    rw [List.mem_singleton.1 hb] at hlt
    exact Nat.lt_irrefl _ hlt
  numbered c hc := Nat.lt_succ_of_lt (h.numbered c hc)
  lanes := h.lanes
  own c hc m hm heq := by
    rcases List.mem_append.1 hm with hm | hm
    · exact h.own c hc m hm heq
    · rw [List.mem_singleton.1 hm] at heq
      exact absurd (heq ▸ h.numbered c hc) (Nat.lt_irrefl _)

/-- A checkpoint that is on its lane commits some entries. -/
theorem commit (h : Numbered crew begun log) {ℓ : Lane} {a : Nat} (ha : a < begun)
    (hlog : ∀ c ∈ log, c.checkpoint = a → c.lane = ℓ) (hcrew : ∀ m ∈ crew, m.2 = a → m.1.lane = ℓ)
    (es : List Bytes) : Numbered crew begun (log ++ Commit.all ℓ a es) where
  fresh := h.fresh
  nodup := h.nodup
  numbered c hc := by
    rcases List.mem_append.1 hc with hc | hc
    · exact h.numbered c hc
    · rw [(Commit.mem_all.1 hc).2.1]
      exact ha
  lanes c hc c' hc' heq := by
    rcases List.mem_append.1 hc with hc | hc <;> rcases List.mem_append.1 hc' with hc' | hc'
    · exact h.lanes c hc c' hc' heq
    · obtain ⟨hℓ, hn, -⟩ := Commit.mem_all.1 hc'
      exact (hlog c hc (heq.trans hn)).trans hℓ.symm
    · obtain ⟨hℓ, hn, -⟩ := Commit.mem_all.1 hc
      exact hℓ.trans (hlog c' hc' (heq.symm.trans hn)).symm
    · exact (Commit.mem_all.1 hc).1.trans (Commit.mem_all.1 hc').1.symm
  own c hc m hm heq := by
    rcases List.mem_append.1 hc with hc | hc
    · exact h.own c hc m hm heq
    · obtain ⟨hℓ, hn, -⟩ := Commit.mem_all.1 hc
      exact (hcrew m hm (heq.trans hn)).trans hℓ.symm

theorem emit (h : Numbered crew begun log) (ℓ : Lane) (es : List Bytes) :
    Numbered crew (begun + 1) (log ++ Commit.all ℓ begun es) := by
  have hmore : Numbered crew (begun + 1) log :=
    { h with
      fresh := fun m hm => Nat.lt_succ_of_lt (h.fresh m hm)
      numbered := fun c hc => Nat.lt_succ_of_lt (h.numbered c hc) }
  refine hmore.commit (Nat.lt_succ_self _) (fun c hc heq => ?_) (fun m hm heq => ?_) es
  · exact absurd (heq ▸ h.numbered c hc) (Nat.lt_irrefl _)
  · exact absurd (heq ▸ h.fresh m hm) (Nat.lt_irrefl _)

variable {pre post : Crew} {w w' : Writer} {a : Nat}

theorem ne_of_mem (h : Numbered (pre ++ (w, a) :: post) begun log) {m : Writer × Nat}
    (hm : m ∈ pre ++ post) : m.2 ≠ a := by
  have hnodup := h.nodup
  rw [List.map_append, List.map_cons, List.perm_middle.nodup_iff, List.nodup_cons] at hnodup
  intro heq
  refine hnodup.1 ?_
  rw [← List.map_append, ← heq]
  exact List.mem_map.2 ⟨m, hm, rfl⟩

theorem commit_own (h : Numbered (pre ++ (w, a) :: post) begun log) (es : List Bytes) :
    Numbered (pre ++ (w, a) :: post) begun (log ++ Commit.all w.lane a es) := by
  have hw : (w, a) ∈ pre ++ (w, a) :: post := by simp
  refine h.commit (h.fresh _ hw) (fun c hc heq => (h.own c hc _ hw heq.symm).symm) ?_ es
  intro m hm heq
  rcases List.mem_append.1 hm with hm | hm
  · exact absurd heq (h.ne_of_mem (List.mem_append_left _ hm))
  · rcases List.mem_cons.1 hm with rfl | hm
    · rfl
    · exact absurd heq (h.ne_of_mem (List.mem_append_right _ hm))

/-- A writer goes on, on its lane. -/
theorem turn (h : Numbered (pre ++ (w, a) :: post) begun log) (hl : w'.lane = w.lane) :
    Numbered (pre ++ (w', a) :: post) begun log where
  fresh m hm := by
    rcases List.mem_append.1 hm with hm | hm
    · exact h.fresh m (List.mem_append_left _ hm)
    · rcases List.mem_cons.1 hm with rfl | hm
      · exact h.fresh (w, a) (by simp)
      · exact h.fresh m (by simp [hm])
  nodup := by
    have hn := h.nodup
    simpa using hn
  numbered := h.numbered
  lanes := h.lanes
  own c hc m hm heq := by
    rcases List.mem_append.1 hm with hm | hm
    · exact h.own c hc m (List.mem_append_left _ hm) heq
    · rcases List.mem_cons.1 hm with rfl | hm
      · exact hl.trans (h.own c hc (w, a) (by simp) heq)
      · exact h.own c hc m (by simp [hm]) heq

theorem leave (h : Numbered (pre ++ (w, a) :: post) begun log) :
    Numbered (pre ++ post) begun log := by
  have hsub : (pre ++ post).Sublist (pre ++ (w, a) :: post) :=
    (List.Sublist.refl pre).append (List.sublist_cons_self _ _)
  exact
    { fresh := fun m hm => h.fresh m (hsub.subset hm)
      nodup := h.nodup.sublist (hsub.map _)
      numbered := h.numbered
      lanes := h.lanes
      own := fun c hc m hm => h.own c hc m (hsub.subset hm) }

end Numbered

/-! ## 3. Order -/

/-- What the open writers of a lane hold. -/
def holdings (ℓ : Lane) (crew : Crew) : List (List Bytes) :=
  (crew.filter fun m => m.1.lane = ℓ).map fun m => m.1.held

@[simp] theorem holdings_append (ℓ : Lane) (crew crew' : Crew) :
    holdings ℓ (crew ++ crew') = holdings ℓ crew ++ holdings ℓ crew' := by
  simp [holdings]

theorem holdings_cons_self (w : Writer) (a : Nat) (crew : Crew) :
    holdings w.lane ((w, a) :: crew) = w.held :: holdings w.lane crew := by
  simp [holdings]

theorem holdings_cons_of_ne {w : Writer} {ℓ : Lane} (h : w.lane ≠ ℓ) (a : Nat) (crew : Crew) :
    holdings ℓ ((w, a) :: crew) = holdings ℓ crew := by
  simp [holdings, h]

def Plain (crossed : List ThreadId) (ℓ : Lane) : Prop := ∀ t, ℓ = .carrier t → t ∉ crossed

variable {r r' : Recorder} {crossed : List ThreadId} {waiting : List Commit}

/-- **What waits on a lane, and what its writer holds, are its commits in order**, where no two
writers overlap. -/
structure InOrder (r : Recorder) (crew : Crew) (crossed : List ThreadId) (waiting : List Commit) :
    Prop where
  idle : ∀ m ∈ crew, m.1.kind ≠ .threadLocal → m.1.held = []
  single : ∀ t, t ∉ crossed → (crew.filter fun m => m.1.lane = .carrier t).length ≤ 1
  kept : ∀ m ∈ crew, m.1.dropped = false → Plain crossed m.1.lane → (r.line m.1.lane).kept = []
  order : ∀ ℓ, Plain crossed ℓ →
    Commit.on ℓ waiting = (r.line ℓ).all ++ (holdings ℓ crew).flatten

namespace Writer

theorem kind_eq_of_lane_eq {w : Writer} {ℓ : Lane} (h : w.lane = ℓ) : w.kind = ℓ.kind := by
  rw [← h, lane, Lane.kind_of]

/-- **A writer goes on, or is gone from now on**, and some entries are cut off. -/
def Turns (w : Writer) (cut : List Bytes) (l : Line) (w' : Writer) (l' : Line) : Prop :=
  (w.dropped = false ∧ w'.dropped = false ∧ l.Goes w.held cut l' w'.held) ∨
    (w'.Gone ∧ l.Closes (w.held ++ cut) l' ∧ (w.dropped = false ∨ w.held ++ cut = []))

variable {w : Writer} {r : Recorder} {out : List Buffer} {e : Epoch}

theorem Gone.turns (hw : w.Gone) (l : Line) : w.Turns [] l w l := by
  have hheld : w.held ++ [] = [] := by rw [held_of_buffer_none hw.buffer, List.append_nil]
  have hfull : l.Closes [] (l.push []) := .full
  refine .inr ⟨hw, ?_, .inr hheld⟩
  rw [hheld]
  rwa [Line.push_nil] at hfull

/-- **One more segment** either fits, or the writer renews or flushes its buffer first, or it is
gone for want of one.  A flush cuts off one entry, which is queued on the lane; all else stays held.
-/
theorem Valid.append_turns (hw : w.Valid e) (h : r.Sound (w.buffer.toList ++ out) e)
    (segment : Bytes) :
    Ends (w.append segment) r fun answer r' => ∀ outcome w', answer = .ok (outcome, w') →
      Refused outcome ∨ ∃ l, r.Shifts w.lane l r' ∧
        w.Turns (w.cutOff? segment r.clock).toList (r.line w.lane) w' l := by
  rcases hw with hgone | ⟨b, run, hw⟩
  · rw [hgone.cutOff?_eq]
    refine Ends.of_run (hgone.runOn_append segment) ?_
    rintro _ _ ⟨⟩
    exact .inr ⟨_, .refl r _, hgone.turns _⟩
  · rw [hw.buffer] at h
    refine (hw.append_shifts h segment).mono ?_
    rintro answer r' hpost outcome w' rfl
    refine (hpost outcome w' rfl).imp id ?_
    rintro ⟨l, hl, ⟨halive, hgoes⟩ | ⟨hgone, hcloses⟩⟩
    · exact ⟨l, hl, .inl ⟨hw.alive, halive, hgoes⟩⟩
    · exact ⟨l, hl, .inr ⟨hgone, hcloses, .inl hw.alive⟩⟩

theorem Valid.turns_gone (hw : w.Valid e) {l l' : Line} {cut : List Bytes}
    (hcut : w.Gone → cut = []) (hl : l.Closes (w.held ++ cut) l') : w.Turns cut l w.gone l' := by
  refine .inr ⟨gone_gone w, hl, ?_⟩
  rcases hw with hgone | ⟨b, run, hw⟩
  · exact .inr (by rw [held_of_buffer_none hgone.buffer, hcut hgone, List.append_nil])
  · exact .inl hw.alive

end Writer

namespace InOrder

variable {pre post : Crew} {w w' : Writer} {a : Nat} {ℓ : Lane} {l : Line} {es : List Bytes}

theorem mono (h : InOrder r crew crossed waiting) {crossed' : List ThreadId}
    (hc : crossed ⊆ crossed') : InOrder r crew crossed' waiting where
  idle := h.idle
  single t ht := h.single t fun hin => ht (hc hin)
  kept m hm ha hp := h.kept m hm ha fun t ht hin => hp t ht (hc hin)
  order ℓ hp := h.order ℓ fun t ht hin => hp t ht (hc hin)

/-- The other writers of the lane hold nothing. -/
theorem alone (h : InOrder r (pre ++ (w, a) :: post) crossed waiting)
    (hp : Plain crossed w.lane) :
    (holdings w.lane pre).flatten = [] ∧ (holdings w.lane post).flatten = [] := by
  have hnil : ∀ crew : Crew, (∀ m ∈ crew, m.1.lane = w.lane → m.1.held = []) →
      (holdings w.lane crew).flatten = [] := by
    intro crew hcrew
    rw [List.flatten_eq_nil_iff]
    intro es hes
    obtain ⟨m, hm, rfl⟩ := List.mem_map.1 hes
    obtain ⟨hm, hl⟩ := List.mem_filter.1 hm
    exact hcrew m hm (of_decide_eq_true hl)
  cases hw : w.lane with
  | carrier t =>
    have hlength := h.single t (hp t hw)
    simp only [List.filter_append, List.filter_cons, hw, decide_true, if_true, List.length_append,
      List.length_cons] at hlength
    have hnone : ∀ crew : Crew, (crew.filter fun m => m.1.lane = .carrier t).length = 0 →
        (holdings (.carrier t) crew).flatten = [] := by
      intro crew hcrew
      rw [holdings, List.length_eq_zero_iff.1 hcrew]
      rfl
    exact ⟨hnone pre (by omega), hnone post (by omega)⟩
  | _ =>
    have hidle : ∀ m ∈ pre ++ (w, a) :: post, m.1.lane = w.lane → m.1.held = [] := by
      intro m hm hl
      refine h.idle m hm ?_
      rw [Writer.kind_eq_of_lane_eq hl, hw]
      decide
    rw [← hw]
    exact ⟨hnil pre fun m hm => hidle m (by simp [hm]),
      hnil post fun m hm => hidle m (by simp [hm])⟩

theorem order_self (h : InOrder r (pre ++ (w, a) :: post) crossed waiting)
    (hp : Plain crossed w.lane) : Commit.on w.lane waiting = (r.line w.lane).all ++ w.held := by
  obtain ⟨hpre, hpost⟩ := h.alone hp
  rw [h.order w.lane hp, holdings_append, holdings_cons_self, List.flatten_append,
    List.flatten_cons, hpre, hpost, List.nil_append, List.append_nil]

theorem flatten_holdings (h : InOrder r crew crossed waiting) (hp : Plain crossed ℓ)
    (hfree : ∀ t, ℓ = .carrier t → t ∉ crossed → ∀ m ∈ crew, m.1.lane ≠ ℓ) :
    (holdings ℓ crew).flatten = [] := by
  rw [List.flatten_eq_nil_iff]
  intro es hes
  obtain ⟨m, hm, rfl⟩ := List.mem_map.1 hes
  obtain ⟨hmem, hl⟩ := List.mem_filter.1 hm
  have hl : m.1.lane = ℓ := of_decide_eq_true hl
  refine h.idle m hmem fun hk => ?_
  cases ℓ with
  | carrier t => exact hfree t rfl (hp t rfl) m hmem hl
  | _ =>
    rw [Writer.kind_eq_of_lane_eq hl] at hk
    cases hk

theorem lane_ne (h : InOrder r (pre ++ (w, a) :: post) crossed waiting) {t : ThreadId}
    (hw : w.lane = .carrier t) (ht : t ∉ crossed) : ∀ m ∈ pre ++ post, m.1.lane ≠ w.lane := by
  intro m hm hl
  have hlength := h.single t ht
  have hpos : 0 < ((pre ++ post).filter fun m => m.1.lane = .carrier t).length :=
    List.length_pos_of_mem (List.mem_filter.2 ⟨hm, decide_eq_true (hl.trans hw)⟩)
  simp only [List.filter_append, List.filter_cons, hw, decide_true, if_true, List.length_append,
    List.length_cons] at hlength hpos
  omega

/-- **A writer begins** on a lane where there is none, unless it is crossed.  It takes over what the
bound buffer of its thread holds, so what waits on the lane is the same as before. -/
theorem start (h : InOrder r crew crossed waiting) (hl : r.Shifts w.lane l r')
    (hfree : ∀ t, w.lane = .carrier t → t ∉ crossed → ∀ m ∈ crew, m.1.lane ≠ w.lane)
    (hw : (w.Gone ∧ l.all = (r.line w.lane).all) ∨
      (w.dropped = false ∧ (r.line w.lane).Begins l w.held)) :
    InOrder r' (crew ++ [(w, a)]) crossed waiting where
  idle m hm hk := by
    rcases List.mem_append.1 hm with hm | hm
    · exact h.idle m hm hk
    · obtain rfl := List.mem_singleton.1 hm
      rcases hw with ⟨hgone, -⟩ | ⟨-, hbegins⟩
      · exact Writer.held_of_buffer_none hgone.buffer
      · have hnone : (r.line w.lane).kept = [] :=
          r.kept_eq_nil (by rwa [← Writer.kind_eq_of_lane_eq rfl])
        dsimp only
        generalize w.held = held at hbegins ⊢
        cases hbegins with
        | again => exact hnone
        | fresh => rfl
  single t ht := by
    rw [List.filter_append, List.length_append]
    by_cases hlane : w.lane = .carrier t
    · have hnone : (crew.filter fun m => m.1.lane = .carrier t) = [] :=
        List.filter_eq_nil_iff.2 fun m hm => by simpa [hlane] using hfree t hlane ht m hm
      simp [hnone, hlane]
    · simpa [hlane] using h.single t ht
  kept m hm ha hp := by
    by_cases hlane : m.1.lane = w.lane
    · rcases List.mem_append.1 hm with hm | hm
      · cases hw' : w.lane with
        | carrier t => exact absurd hlane (hfree t hw' (hp t (hlane.trans hw')) m hm)
        | _ =>
          rw [hlane, hw']
          rfl
      · obtain rfl := List.mem_singleton.1 hm
        rcases hw with ⟨hgone, -⟩ | ⟨-, hbegins⟩
        · exact absurd ha hgone.dropped_ne
        · rw [hl.line]
          exact hbegins.all.1
    · rw [hl.others _ hlane]
      rcases List.mem_append.1 hm with hm | hm
      · exact h.kept m hm ha hp
      · exact absurd (by rw [List.mem_singleton.1 hm]) hlane
  order ℓ hp := by
    rw [holdings_append, List.flatten_append]
    by_cases hlane : w.lane = ℓ
    · subst hlane
      have hnone := h.flatten_holdings hp hfree
      have horder := h.order w.lane hp
      rw [hnone, List.append_nil] at horder
      rw [hnone, horder, hl.line, holdings_cons_self]
      rcases hw with ⟨hgone, hall⟩ | ⟨-, hbegins⟩
      · simp [hall, Writer.held_of_buffer_none hgone.buffer, holdings]
      · obtain ⟨hkept, hall⟩ := hbegins.all
        rw [← hall]
        simp [Line.all, hkept, holdings]
    · rw [hl.others ℓ (Ne.symm hlane), holdings_cons_of_ne hlane]
      simpa [holdings] using h.order ℓ hp

/-- **A writer goes on, or is gone**, and what it commits comes last. -/
theorem turn (h : InOrder r (pre ++ (w, a) :: post) crossed waiting)
    (hl : r.Shifts w.lane l r') (hlane : w'.lane = w.lane) {cut : List Bytes}
    (hw : w.Turns cut (r.line w.lane) w' l) :
    InOrder r' (pre ++ (w', a) :: post) crossed (waiting ++ Commit.all w.lane a cut) where
  idle m hm hk := by
    rcases List.mem_append.1 hm with hm | hm
    · exact h.idle m (by simp [hm]) hk
    · rcases List.mem_cons.1 hm with rfl | hm
      · have hkind : w.kind ≠ .threadLocal := by
          rw [Writer.kind_eq_of_lane_eq hlane.symm]
          rwa [Writer.kind_eq_of_lane_eq rfl] at hk
        have hnone := h.idle (w, a) (by simp) hkind
        rcases hw with ⟨-, -, hgoes⟩ | ⟨hgone, -⟩
        · dsimp only at hnone ⊢
          rw [hnone] at hgoes
          generalize w'.held = held at hgoes ⊢
          cases hgoes <;> rfl
        · exact Writer.held_of_buffer_none hgone.buffer
      · exact h.idle m (by simp [hm]) hk
  single t ht := by
    have hs := h.single t ht
    by_cases hw' : w.lane = .carrier t <;> simpa [List.filter_cons, hlane, hw'] using hs
  kept m hm ha hp := by
    by_cases hm' : m = (w', a)
    · subst hm'
      rcases hw with ⟨halive, -, hgoes⟩ | ⟨hgone, -⟩
      · rw [hlane, hl.line, hgoes.kept]
        refine h.kept (w, a) (by simp) halive ?_
        rwa [← hlane]
      · exact absurd ha hgone.dropped_ne
    · have hm : m ∈ pre ++ post := by
        rcases List.mem_append.1 hm with hm | hm
        · exact List.mem_append_left _ hm
        · exact List.mem_append_right _ ((List.mem_cons.1 hm).resolve_left hm')
      have hmem : m ∈ pre ++ (w, a) :: post := by
        rcases List.mem_append.1 hm with hm | hm <;> simp [hm]
      by_cases hsame : m.1.lane = w.lane
      · cases hw' : w.lane with
        | carrier t => exact absurd hsame (h.lane_ne hw' (hp t (hsame.trans hw')) m hm)
        | _ =>
          rw [hsame, hw']
          rfl
      · rw [hl.others _ hsame]
        exact h.kept m hmem ha hp
  order ℓ hp := by
    by_cases hℓ : w.lane = ℓ
    · subst hℓ
      have horder := h.order_self hp
      obtain ⟨hpre, hpost⟩ := h.alone hp
      have hholdings : (holdings w.lane (pre ++ (w', a) :: post)).flatten = w'.held := by
        rw [← hlane] at hpre hpost ⊢
        rw [holdings_append, holdings_cons_self, List.flatten_append, List.flatten_cons, hpre,
          hpost, List.nil_append, List.append_nil]
      rw [Commit.on_append, Commit.on_all_self, horder, hl.line, hholdings]
      rcases hw with ⟨halive, -, hgoes⟩ | ⟨hgone, hcloses, hwhy⟩
      · have hkept := h.kept (w, a) (by simp) halive hp
        have hall := hgoes.all
        simp [Line.all, hgoes.kept, hkept, hall]
      · have hkept : w.held ++ cut = [] ∨ (r.line w.lane).kept = [] :=
          hwhy.symm.imp id fun halive => h.kept (w, a) (by simp) halive hp
        rw [hcloses.all hkept, Writer.held_of_buffer_none hgone.buffer, List.append_nil,
          List.append_assoc]
    · have hℓ' : w'.lane ≠ ℓ := hlane ▸ hℓ
      have horder := h.order ℓ hp
      rw [holdings_append, holdings_cons_of_ne hℓ] at horder
      rw [Commit.on_append, Commit.on_all_of_ne (Ne.symm hℓ), List.append_nil, horder,
        hl.others ℓ (Ne.symm hℓ), holdings_append, holdings_cons_of_ne hℓ']

theorem leave (h : InOrder r (pre ++ (w, a) :: post) crossed waiting) (hw : w.held = []) :
    InOrder r (pre ++ post) crossed waiting := by
  have hsub : (pre ++ post).Sublist (pre ++ (w, a) :: post) :=
    (List.Sublist.refl pre).append (List.sublist_cons_self _ _)
  refine ⟨fun m hm => h.idle m (hsub.subset hm), fun t ht => ?_,
    fun m hm => h.kept m (hsub.subset hm), fun ℓ hp => ?_⟩
  · exact Nat.le_trans (hsub.filter _).length_le (h.single t ht)
  · rw [h.order ℓ hp]
    by_cases hℓ : w.lane = ℓ
    · subst hℓ
      simp [holdings_cons_self, hw]
    · simp [holdings_cons_of_ne hℓ]

/-- **The recorder writes a checkpoint of its own** on a lane where there is no writer, unless it is
crossed or nothing is written. -/
theorem emit (h : InOrder r crew crossed waiting) (hl : r.Shifts ℓ l r')
    (hqueue : (r.line ℓ).queue <+: l.queue) (hall : l.all = (r.line ℓ).all ++ es)
    (hfree : es = [] ∨ ∀ t, ℓ = .carrier t → t ∉ crossed → ∀ m ∈ crew, m.1.lane ≠ ℓ) :
    InOrder r' crew crossed (waiting ++ Commit.all ℓ a es) where
  idle := h.idle
  single := h.single
  kept m hm ha hp := by
    by_cases hlane : m.1.lane = ℓ
    · have hnone : (r.line ℓ).kept = [] := hlane ▸ h.kept m hm ha hp
      cases ℓ with
      | carrier t =>
        rcases hfree with rfl | hfree
        · rw [hlane, hl.line]
          have hlength := congrArg List.length hall
          simp only [Line.all, hnone, List.append_nil, List.length_append] at hlength
          have hle := hqueue.length_le
          exact List.length_eq_zero_iff.1 (by omega)
        · exact absurd hlane (hfree t rfl (hp t hlane) m hm)
      | _ =>
        rw [hlane]
        rfl
    · rw [hl.others _ hlane]
      exact h.kept m hm ha hp
  order ℓ' hp := by
    by_cases hℓ : ℓ' = ℓ
    · subst hℓ
      rw [Commit.on_append, Commit.on_all_self, h.order ℓ' hp, hl.line, hall]
      rcases hfree with rfl | hfree
      · simp
      · simp [h.flatten_holdings hp hfree]
    · rw [Commit.on_append, Commit.on_all_of_ne hℓ, List.append_nil, h.order ℓ' hp,
        hl.others ℓ' hℓ]

end InOrder

/-! ## 4. Pieces -/

namespace Line

variable {l l' : Line} {held cut es : List Bytes} {before after others : List (List Bytes)}

/-- **Entries stand one behind the other** in the queue, and in what is kept or held behind it. -/
def Bears (l : Line) (held : List (List Bytes)) (es : List Bytes) : Prop :=
  ∃ last, (last = l.kept ∨ last ∈ held) ∧ es.Sublist (l.queue ++ last)

theorem bears_of_all (h : es.Sublist l.all) (held : List (List Bytes)) : l.Bears held es :=
  ⟨l.kept, .inl rfl, h⟩

theorem bears_of_queue (h : es.Sublist l.queue) (held : List (List Bytes)) : l.Bears held es :=
  bears_of_all (h.trans (List.sublist_append_left _ _)) held

theorem Bears.grow (h : l.Bears before es) (hqueue : l.queue <+: l'.queue)
    (hall : l.all.Sublist l'.all) (hheld : before ⊆ after) : l'.Bears after es := by
  obtain ⟨last, hlast | hlast, hes⟩ := h
  · subst hlast
    exact bears_of_all (hes.trans hall) _
  · exact ⟨last, .inr (hheld hlast), hes.trans (hqueue.sublist.append (List.Sublist.refl _))⟩

theorem Bears.begins (h : l.Bears before es) (hl : l.Begins l' held) :
    l'.Bears (before ++ [held]) es := by
  obtain ⟨last, hlast, hes⟩ := h
  cases hl with
  | again =>
    rcases hlast with rfl | hlast
    · exact ⟨l.kept, .inr (by simp), hes⟩
    · exact ⟨last, .inr (by simp [hlast]), hes⟩
  | fresh =>
    rcases hlast with rfl | hlast
    · exact bears_of_queue hes _
    · refine ⟨last, .inr (by simp [hlast]), hes.trans ?_⟩
      exact (queue_prefix_yield l).sublist.append (List.Sublist.refl _)

theorem Bears.goes {held' : List Bytes} (h : l.Bears (before ++ held :: after) es)
    (hl : l.Goes held cut l' held') : l'.Bears (before ++ held' :: after) es := by
  cases hl with
  | on => exact h
  | queued =>
    obtain ⟨last, hlast, hes⟩ := h
    have hgrow : (l.queue ++ last).Sublist ((l.push (held ++ cut)).queue ++ last) :=
      (queue_prefix_push l _).sublist.append (List.Sublist.refl _)
    rcases hlast with rfl | hlast
    · exact bears_of_all (hes.trans hgrow) _
    · rcases List.mem_append.1 hlast with hlast | hlast
      · exact ⟨last, .inr (by simp [hlast]), hes.trans hgrow⟩
      · rcases List.mem_cons.1 hlast with rfl | hlast
        · refine bears_of_queue (hes.trans ?_) _
          exact (List.Sublist.refl _).append (List.sublist_append_left _ _)
        · exact ⟨last, .inr (by simp [hlast]), hes.trans hgrow⟩

/-- All that is held or kept is found again where a lease has ended. -/
theorem Bears.closes (h : l.Bears (before ++ held :: after) es) (hl : l.Closes (held ++ cut) l')
    (hothers : before ++ after ⊆ others) : l'.Bears others es := by
  obtain ⟨last, hlast, hes⟩ := h
  have hheld : (l.queue ++ held).Sublist l'.all := by
    have hin : (l.queue ++ held).Sublist (l.push (held ++ cut)).queue :=
      (List.Sublist.refl _).append (List.sublist_append_left _ _)
    cases hl with
    | full => exact hin.trans (List.sublist_append_left _ _)
    | bound =>
      exact (List.sublist_append_left _ _).append (List.sublist_append_left _ _)
    | both => exact (hin.trans (List.sublist_append_left _ _)).trans (List.sublist_append_left _ _)
  have hkept : (l.queue ++ l.kept).Sublist l'.all := by
    cases hl with
    | full => exact (queue_prefix_push l _).sublist.append (List.Sublist.refl _)
    | bound => exact List.sublist_append_left _ _
    | both =>
      exact ((queue_prefix_push l _).sublist.append (List.Sublist.refl _)).trans
        (List.sublist_append_left _ _)
  have hrest : last ∈ before ++ after → l'.Bears others es := fun hm =>
    ⟨last, .inr (hothers hm), hes.trans (hl.queue.sublist.append (List.Sublist.refl _))⟩
  rcases hlast with rfl | hlast
  · exact bears_of_all (hes.trans hkept) _
  · rcases List.mem_append.1 hlast with hlast | hlast
    · exact hrest (List.mem_append_left _ hlast)
    · rcases List.mem_cons.1 hlast with rfl | hlast
      · exact bears_of_all (hes.trans hheld) _
      · exact hrest (List.mem_append_right _ hlast)

theorem Goes.sublist {held' : List Bytes} (h : l.Goes held cut l' held')
    (hes : es.Sublist l.queue) : (es ++ cut).Sublist l'.queue := by
  cases h with
  | on => rwa [List.append_nil]
  | queued => exact hes.append (List.sublist_append_right _ _)

theorem Closes.sublist (h : l.Closes (held ++ cut) l') (hes : es.Sublist l.queue) :
    (es ++ cut).Sublist l'.all := by
  have hin : (es ++ cut).Sublist (l.push (held ++ cut)).queue :=
    hes.append (List.sublist_append_right _ _)
  cases h with
  | full => exact hin.trans (List.sublist_append_left _ _)
  | bound =>
    exact (hes.trans (List.sublist_append_left _ _)).append (List.sublist_append_right _ _)
  | both => exact (hin.trans (List.sublist_append_left _ _)).trans (List.sublist_append_left _ _)

end Line

namespace Writer.Turns

variable {w w' : Writer} {l l' : Line} {cut es : List Bytes} {before after : List (List Bytes)}

theorem queue_prefix (h : w.Turns cut l w' l') : l.queue <+: l'.queue := by
  rcases h with ⟨-, -, hgoes⟩ | ⟨-, hcloses, -⟩
  · exact hgoes.queue
  · exact hcloses.queue

/-- **What waits on the lane of the writer** stays in order. -/
theorem bears (h : w.Turns cut l w' l') (hb : l.Bears (before ++ w.held :: after) es) :
    l'.Bears (before ++ w'.held :: after) es := by
  rcases h with ⟨-, -, hgoes⟩ | ⟨-, hcloses, -⟩
  · exact hb.goes hgoes
  · refine hb.closes hcloses ?_
    exact List.append_subset.2 ⟨List.subset_append_left _ _,
      fun x hx => List.mem_append_right _ (List.mem_cons_of_mem _ hx)⟩

/-- **The writer's own entries**, the new ones behind the others, if there are new ones. -/
theorem bears_own (h : w.Turns cut l w' l') (hes : w.dropped = false → es.Sublist l.queue)
    (held : List (List Bytes)) : l'.Bears held (es ++ cut) ∨ cut = [] := by
  rcases h with ⟨halive, -, hgoes⟩ | ⟨-, hcloses, halive | hnone⟩
  · exact .inl (Line.bears_of_queue (hgoes.sublist (hes halive)) _)
  · exact .inl (Line.bears_of_all (hcloses.sublist (hes halive)) _)
  · exact .inr (List.append_eq_nil_iff.1 hnone).2

end Writer.Turns

/-- **The commits of one checkpoint stand one behind the other on its lane**, and those of a writer
that goes on are all queued. -/
structure Pieced (r : Recorder) (crew : Crew) (waiting : List Commit) : Prop where
  placed : ∀ c ∈ waiting, (r.line c.lane).Bears (holdings c.lane crew)
    (Commit.pieces c.checkpoint waiting)
  going : ∀ m ∈ crew, m.1.dropped = false →
    (Commit.pieces m.2 waiting).Sublist (r.line m.1.lane).queue

namespace Pieced

variable {pre post : Crew} {w w' : Writer} {a : Nat} {ℓ : Lane} {l : Line} {es : List Bytes}

/-- A writer begins a checkpoint that has no commits yet. -/
theorem start (h : Pieced r crew waiting) (hl : r.Shifts w.lane l r')
    (hnew : ∀ c ∈ waiting, c.checkpoint ≠ a)
    (hw : (w.Gone ∧ l.all = (r.line w.lane).all ∧ (r.line w.lane).queue <+: l.queue) ∨
      (w.dropped = false ∧ (r.line w.lane).Begins l w.held)) :
    Pieced r' (crew ++ [(w, a)]) waiting where
  placed c hc := by
    have hb := h.placed c hc
    rw [holdings_append]
    by_cases hlane : w.lane = c.lane
    · rw [← hlane] at hb ⊢
      rw [hl.line, holdings_cons_self]
      rcases hw with ⟨-, hall, hqueue⟩ | ⟨-, hbegins⟩
      · exact hb.grow hqueue (hall ▸ List.Sublist.refl _) (List.subset_append_left _ _)
      · exact hb.begins hbegins
    · rw [hl.others _ (Ne.symm hlane), holdings_cons_of_ne hlane]
      exact hb.grow (List.prefix_refl _) (List.Sublist.refl _) (List.subset_append_left _ _)
  going m hm ha := by
    rcases List.mem_append.1 hm with hm | hm
    · have hg := h.going m hm ha
      by_cases hlane : m.1.lane = w.lane
      · rw [hlane] at hg ⊢
        rw [hl.line]
        rcases hw with ⟨-, -, hqueue⟩ | ⟨-, hbegins⟩
        · exact hg.trans hqueue.sublist
        · exact hg.trans hbegins.queue.sublist
      · rwa [hl.others _ hlane]
    · obtain rfl := List.mem_singleton.1 hm
      rw [Commit.pieces_eq_nil hnew]
      exact List.nil_sublist _

/-- **A writer goes on, or is gone**, and what it commits comes behind its other commits. -/
theorem turn (h : Pieced r (pre ++ (w, a) :: post) waiting)
    (hn : Numbered (pre ++ (w, a) :: post) begun log) (hlog : waiting ⊆ log)
    (hl : r.Shifts w.lane l r') (hlane : w'.lane = w.lane) {cut : List Bytes}
    (hw : w.Turns cut (r.line w.lane) w' l) :
    Pieced r' (pre ++ (w', a) :: post) (waiting ++ Commit.all w.lane a cut) := by
  have hsame : ∀ b, b ≠ a → Commit.pieces b (waiting ++ Commit.all w.lane a cut) =
      Commit.pieces b waiting := by
    intro b hb
    rw [Commit.pieces_append, Commit.pieces_all_of_ne hb, List.append_nil]
  have hself : Commit.pieces a (waiting ++ Commit.all w.lane a cut) =
      Commit.pieces a waiting ++ cut := by
    rw [Commit.pieces_append, Commit.pieces_all_self]
  have hholdings : ∀ {v : Writer}, v.lane = w.lane → holdings w.lane (pre ++ (v, a) :: post) =
      holdings w.lane pre ++ v.held :: holdings w.lane post := by
    intro v hv
    rw [← hv, holdings_append, holdings_cons_self]
  have hown := hw.bears_own (h.going (w, a) (by simp)) (holdings w.lane (pre ++ (w', a) :: post))
  -- What waits on the lane of the writer, apart from what it commits now.
  have hold : ∀ es, (r.line w.lane).Bears (holdings w.lane (pre ++ (w, a) :: post)) es →
      l.Bears (holdings w.lane (pre ++ (w', a) :: post)) es := by
    intro es hb
    rw [hholdings rfl] at hb
    rw [hholdings hlane]
    exact hw.bears hb
  refine ⟨fun c hc => ?_, fun m hm ha => ?_⟩
  · rcases List.mem_append.1 hc with hc | hc
    · by_cases hca : c.checkpoint = a
      · have hcl : w.lane = c.lane := hn.own c (hlog hc) (w, a) (by simp) hca.symm
        have hb := h.placed c hc
        rw [← hcl] at hb ⊢
        rw [hl.line, hca, hself]
        rcases hown with hown | rfl
        · exact hown
        · rw [List.append_nil]
          rw [hca] at hb
          exact hold _ hb
      · rw [hsame _ hca]
        have hb := h.placed c hc
        by_cases hcl : w.lane = c.lane
        · rw [← hcl] at hb ⊢
          rw [hl.line]
          exact hold _ hb
        · have hcl' : w'.lane ≠ c.lane := hlane ▸ hcl
          rw [holdings_append, holdings_cons_of_ne hcl] at hb
          rwa [hl.others _ (Ne.symm hcl), holdings_append, holdings_cons_of_ne hcl']
    · obtain ⟨hcl, hca, hce⟩ := Commit.mem_all.1 hc
      rw [hcl, hca, hl.line, hself]
      refine hown.resolve_right fun hnone => ?_
      rw [hnone] at hce
      cases hce
  · have hm' : m = (w', a) ∨ m ∈ pre ++ post := by
      rcases List.mem_append.1 hm with hm | hm
      · exact .inr (List.mem_append_left _ hm)
      · exact (List.mem_cons.1 hm).imp id (List.mem_append_right _)
    rcases hm' with rfl | hm'
    · rcases hw with ⟨halive, -, hgoes⟩ | ⟨hgone, -⟩
      · rw [hself, hlane, hl.line]
        exact hgoes.sublist (h.going (w, a) (by simp) halive)
      · exact absurd ha hgone.dropped_ne
    · have hmem : m ∈ pre ++ (w, a) :: post := by
        rcases List.mem_append.1 hm' with hm' | hm' <;> simp [hm']
      have hne : m.2 ≠ a := hn.ne_of_mem hm'
      have hg := h.going m hmem ha
      rw [hsame _ hne]
      by_cases hml : m.1.lane = w.lane
      · rw [hml] at hg ⊢
        rw [hl.line]
        exact hg.trans hw.queue_prefix.sublist
      · rwa [hl.others _ hml]

/-- A writer that is gone leaves. -/
theorem leave (h : Pieced r (pre ++ (w, a) :: post) waiting) (hw : w.held = []) :
    Pieced r (pre ++ post) waiting where
  placed c hc := by
    have hb := h.placed c hc
    by_cases hcl : w.lane = c.lane
    · rw [← hcl] at hb ⊢
      rw [holdings_append, holdings_cons_self] at hb
      obtain ⟨last, hlast, hes⟩ := hb
      rw [holdings_append]
      rcases hlast with rfl | hlast
      · exact Line.bears_of_all hes _
      · rcases List.mem_append.1 hlast with hlast | hlast
        · exact ⟨last, .inr (List.mem_append_left _ hlast), hes⟩
        · rcases List.mem_cons.1 hlast with rfl | hlast
          · rw [hw, List.append_nil] at hes
            exact Line.bears_of_queue hes _
          · exact ⟨last, .inr (List.mem_append_right _ hlast), hes⟩
    · rwa [holdings_append, holdings_cons_of_ne hcl, ← holdings_append] at hb
  going m hm ha := by
    refine h.going m ?_ ha
    rcases List.mem_append.1 hm with hm | hm <;> simp [hm]

/-- **The recorder writes a checkpoint of its own.**  Its entries are queued at once and one behind
the other, so they are pieces in order, whoever is open on the lane. -/
theorem emit (h : Pieced r crew waiting) (hn : Numbered crew begun log) (hlog : waiting ⊆ log)
    (hl : r.Shifts ℓ l r') (hqueue : (r.line ℓ).queue <+: l.queue)
    (hall : l.all = (r.line ℓ).all ++ es) :
    Pieced r' crew (waiting ++ Commit.all ℓ begun es) where
  placed c hc := by
    rcases List.mem_append.1 hc with hc | hc
    · have hne : c.checkpoint ≠ begun := Nat.ne_of_lt (hn.numbered c (hlog hc))
      rw [Commit.pieces_append, Commit.pieces_all_of_ne hne, List.append_nil]
      have hb := h.placed c hc
      by_cases hcl : c.lane = ℓ
      · rw [hcl] at hb ⊢
        rw [hl.line]
        refine hb.grow hqueue ?_ fun x hx => hx
        rw [hall]
        exact List.sublist_append_left _ _
      · rwa [hl.others _ hcl]
    · obtain ⟨hcl, hcb, -⟩ := Commit.mem_all.1 hc
      have hnone : Commit.pieces begun waiting = [] :=
        Commit.pieces_eq_nil fun c hc => Nat.ne_of_lt (hn.numbered c (hlog hc))
      rw [hcl, hcb, hl.line, Commit.pieces_append, Commit.pieces_all_self, hnone, List.nil_append]
      refine Line.bears_of_all ?_ _
      rw [hall]
      exact List.sublist_append_right _ _
  going m hm ha := by
    have hne : m.2 ≠ begun := Nat.ne_of_lt (hn.fresh m hm)
    rw [Commit.pieces_append, Commit.pieces_all_of_ne hne, List.append_nil]
    have hg := h.going m hm ha
    by_cases hml : m.1.lane = ℓ
    · rw [hml] at hg ⊢
      rw [hl.line]
      exact hg.trans hqueue.sublist
    · rwa [hl.others _ hml]

end Pieced

end TraceRecorder
