/-
# What operations end in

`Fallible.Ends x s post` says of the operation `x` on the state `s` that its answer and the state
after it are related by `post`.  The answer may be a fault, and then the state is the one that the
fault left behind; so `post` speaks of faults too.

There is one lemma for each way in which operations are put together.  The one for sequences,
`Ends.bind`, asks what the first part ends in: an answer is handed on, a fault is final.  For a
first part that always answers there is `Ends.next`.

`Fallible.Answers x s post` says less: if there is an answer, then it and the state after it are
related by `post`, and faults are of no account.

`Fallible.Keeps f x` says that `x` leaves the view `f` of a state alone, from any state and whatever
it answers.
-/
import TraceRecorder.Fallible

namespace TraceRecorder

namespace Fallible

variable {ε σ α β : Type} {s : σ}

/-- **The answer of an operation and the state after it are related.** -/
def Ends (x : Fallible ε σ α) (s : σ) (post : Except ε α → σ → Prop) : Prop :=
  post (runOn x s).1 (runOn x s).2

namespace Ends

theorem mono {x : Fallible ε σ α} {post post' : Except ε α → σ → Prop} (h : Ends x s post)
    (hp : ∀ a s', post a s' → post' a s') : Ends x s post' := hp _ _ h

theorem of_run {x : Fallible ε σ α} {post : Except ε α → σ → Prop} {a : Except ε α} {s' : σ}
    (hr : runOn x s = (a, s')) (h : post a s') : Ends x s post := by
  rw [Ends, hr]
  exact h

theorem run_eq {x : Fallible ε σ α} {post : Except ε α → σ → Prop} {a : Except ε α} {s' : σ}
    (h : Ends x s post) (hr : runOn x s = (a, s')) : post a s' := by
  rw [Ends, hr] at h
  exact h

theorem self (x : Fallible ε σ α) (s : σ) : Ends x s fun a s' => runOn x s = (a, s') := rfl

theorem and {x : Fallible ε σ α} {post post' : Except ε α → σ → Prop} (h : Ends x s post)
    (h' : Ends x s post') : Ends x s fun a s' => post a s' ∧ post' a s' := ⟨h, h'⟩

theorem also {x : Fallible ε σ α} {a : α} {mid mid' : σ → Prop}
    (h : Ends x s fun answer s' => answer = .ok a ∧ mid s') (h' : Ends x s fun _ s' => mid' s') :
    Ends x s fun answer s' => answer = .ok a ∧ mid s' ∧ mid' s' := ⟨h.1, h.2, h'⟩

/-- **A sequence**: an answer is handed on, a fault is final. -/
theorem bind {x : Fallible ε σ α} {f : α → Fallible ε σ β} {mid : Except ε α → σ → Prop}
    {post : Except ε β → σ → Prop} (hx : Ends x s mid)
    (hok : ∀ a s', mid (.ok a) s' → Ends (f a) s' post)
    (herror : ∀ e s', mid (.error e) s' → post (.error e) s') : Ends (x >>= f) s post := by
  unfold Ends at *
  rw [runOn_bind]
  generalize runOn x s = result at hx ⊢
  obtain ⟨e | a, s'⟩ := result
  · exact herror e s' hx
  · exact hok a s' hx

/-- **What follows a part that always answers.** -/
theorem next {x : Fallible ε σ α} {f : α → Fallible ε σ β} {mid : σ → Prop}
    {post : Except ε β → σ → Prop} {a : α} (hx : Ends x s fun answer s' => answer = .ok a ∧ mid s')
    (hf : ∀ s', mid s' → Ends (f a) s' post) : Ends (x >>= f) s post := by
  refine hx.bind ?_ ?_
  · rintro _ s' ⟨⟨⟩, hmid⟩
    exact hf s' hmid
  · rintro _ _ ⟨⟨⟩, -⟩

theorem after {x : Fallible ε σ α} {f : α → Fallible ε σ β} {post : Except ε β → σ → Prop} {a : α}
    {s' : σ} (hr : runOn x s = (.ok a, s')) (h : Ends (f a) s' post) : Ends (x >>= f) s post := by
  unfold Ends at *
  rw [runOn_bind, hr]
  exact h

theorem stop {x : Fallible ε σ α} {f : α → Fallible ε σ β} {post : Except ε β → σ → Prop} {e : ε}
    {s' : σ} (hr : runOn x s = (.error e, s')) (h : post (.error e) s') :
    Ends (x >>= f) s post := by
  unfold Ends at *
  rw [runOn_bind, hr]
  exact h

/-- **What follows a fault that was made a value**, or an answer. -/
theorem attempt {x : Fallible ε σ α} {f : Except ε α → Fallible ε σ β}
    {mid : Except ε α → σ → Prop} {post : Except ε β → σ → Prop} (hx : Ends x s mid)
    (h : ∀ a s', mid a s' → Ends (f a) s' post) : Ends (x.attempt >>= f) s post := h _ _ hx

end Ends

/-- **What an answer and the state after it are**, if the operation meets no fault. -/
def Answers (x : Fallible ε σ α) (s : σ) (post : α → σ → Prop) : Prop :=
  Ends x s fun answer s' => ∀ a, answer = .ok a → post a s'

namespace Answers

variable {x : Fallible ε σ α} {post : α → σ → Prop} {a : α} {s' : σ}

theorem of_ends {post' : Except ε α → σ → Prop} (h : Ends x s post')
    (hp : ∀ a s', post' (.ok a) s' → post a s') : Answers x s post :=
  h.mono fun _ s' hpost a heq => hp a s' (heq ▸ hpost)

theorem run_eq (h : Answers x s post) (hr : runOn x s = (.ok a, s')) : post a s' :=
  Ends.run_eq h hr a rfl

theorem mono {post' : α → σ → Prop} (h : Answers x s post) (hp : ∀ a s', post a s' → post' a s') :
    Answers x s post' := Ends.mono h fun _ s' hpost a heq => hp a s' (hpost a heq)

theorem any (x : Fallible ε σ α) (s : σ) : Answers x s fun _ _ => True := fun _ _ => trivial

theorem pure (h : post a s) : Answers (Pure.pure a : Fallible ε σ α) s post := by
  rintro _ ⟨⟩
  exact h

theorem throw (e : ε) : Answers (MonadExcept.throw e : Fallible ε σ α) s post := fun _ heq => by
  cases heq

theorem settle (answer : Except ε α) (s : σ) :
    Answers (Fallible.settle answer) s fun a s' => s' = s ∧ answer = .ok a :=
  Ends.of_run (runOn_settle answer s) fun _ heq => ⟨rfl, heq⟩

/-- **A sequence answers** if both parts do. -/
theorem bind {f : α → Fallible ε σ β} {mid : α → σ → Prop} {post : β → σ → Prop}
    (hx : Answers x s mid) (hf : ∀ a s', mid a s' → Answers (f a) s' post) :
    Answers (x >>= f) s post :=
  Ends.bind hx (fun a s' hmid => hf a s' (hmid a rfl)) fun _ _ _ _ heq => by cases heq

theorem after {f : α → Fallible ε σ β} {post : β → σ → Prop} (hr : runOn x s = (.ok a, s'))
    (h : Answers (f a) s' post) : Answers (x >>= f) s post := Ends.after hr h

/-- **An operation on a part of the state** answers as it does there. -/
theorem zoom {ε' τ : Type} {part : τ → σ} {put : τ → σ → τ} {fault : ε → ε'} {whole : τ}
    (h : Answers x (part whole) post) :
    Answers (x.zoom part put fault) whole fun a whole' =>
      ∃ s', whole' = put whole s' ∧ post a s' := by
  rcases hrun : runOn x (part whole) with ⟨answer, s'⟩
  refine Ends.of_run (runOn_zoom part put fault x whole) ?_
  rw [hrun]
  cases answer with
  | error e => exact fun _ heq => by cases heq
  | ok a =>
    rintro _ ⟨⟩
    exact ⟨s', rfl, h.run_eq hrun⟩

end Answers

variable {γ : Type} {f : σ → γ}

/-- **An operation leaves a view of the state alone**, whatever it answers. -/
def Keeps (f : σ → γ) (x : Fallible ε σ α) : Prop := ∀ s, f (runOn x s).2 = f s

namespace Keeps

theorem ends {x : Fallible ε σ α} (h : Keeps f x) (s : σ) : Ends x s fun _ s' => f s' = f s := h s

theorem pure (a : α) : Keeps f (Pure.pure a : Fallible ε σ α) := fun _ => rfl

theorem throw (e : ε) : Keeps f (MonadExcept.throw e : Fallible ε σ α) := fun _ => rfl

/-- **A sequence** leaves alone what both parts do. -/
theorem bind {x : Fallible ε σ α} {g : α → Fallible ε σ β} (hx : Keeps f x)
    (hg : ∀ a, Keeps f (g a)) : Keeps f (x >>= g) := by
  intro s
  have hs := hx s
  rw [runOn_bind]
  generalize runOn x s = result at hs ⊢
  obtain ⟨e | a, s'⟩ := result
  · exact hs
  · exact (hg a s').trans hs

/-- **What can be read off a view is left alone with it.** -/
theorem coarser {f : σ → σ} {g : σ → γ} {x : Fallible ε σ α} (h : Keeps f x)
    (hg : ∀ s, g s = g (f s)) : Keeps g x := by
  intro s
  rw [hg, h s, ← hg]

theorem get_bind {g : σ → Fallible ε σ α} (h : ∀ s, f (runOn (g s) s).2 = f s) :
    Keeps f ((get : Fallible ε σ σ) >>= g) := h

theorem update {g : σ → σ} (h : ∀ s, f (g s) = f s) :
    Keeps f (modify g : Fallible ε σ PUnit) := h

theorem attempt {x : Fallible ε σ α} (h : Keeps f x) : Keeps f x.attempt := h

theorem settle (answer : Except ε α) : Keeps f (Fallible.settle answer : Fallible ε σ α) := by
  intro s
  rw [runOn_settle]

end Keeps

end Fallible

end TraceRecorder
