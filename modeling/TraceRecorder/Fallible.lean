/-
# Fallible steps on a state

Most operations of the recorder change a state and may end in a fault, and what they changed
before the fault stays changed.  `Fallible ε σ α` is the type of such an operation.  `runOn` shows
it as a function from a state to an answer and the next state, and the lemmas `runOn_*` compute
that function: a sequence goes on with the state that its first part left, and stops at the first
fault.
-/
namespace TraceRecorder

/-- An operation on a state `σ` that answers with an `α` or a fault, and **keeps its state
changes in both cases**. -/
abbrev Fallible (ε σ : Type) := ExceptT ε (StateM σ)

namespace Fallible

variable {ε σ α β : Type}

/-- The answer of an operation and the state after it. -/
def runOn (x : Fallible ε σ α) (s : σ) : Except ε α × σ := x.run.run s

/-- The answer of an operation as a value: a fault does not stop what follows. -/
def attempt (x : Fallible ε σ α) : Fallible ε σ (Except ε α) :=
  ExceptT.mk (do let answer ← x.run; pure (.ok answer))

/-- An answer that was made a value is the answer again. -/
def settle : Except ε α → Fallible ε σ α
  | .ok a => pure a
  | .error e => throw e

/-- **An operation on a part of the state**, with the part's faults seen from the whole. -/
def zoom {ε' τ : Type} (part : τ → σ) (put : τ → σ → τ) (fault : ε → ε')
    (x : Fallible ε σ α) : Fallible ε' τ α :=
  ExceptT.mk (StateT.mk fun whole =>
    let (answer, s) := x.runOn (part whole)
    pure (answer.mapError fault, put whole s))

@[simp] theorem runOn_pure (a : α) (s : σ) : runOn (pure a : Fallible ε σ α) s = (.ok a, s) := rfl

@[simp] theorem runOn_throw (e : ε) (s : σ) :
    runOn (throw e : Fallible ε σ α) s = (.error e, s) := rfl

@[simp] theorem runOn_bind (x : Fallible ε σ α) (f : α → Fallible ε σ β) (s : σ) :
    runOn (x >>= f) s = match runOn x s with
      | (.ok a, s') => runOn (f a) s'
      | (.error e, s') => (.error e, s') := by
  simp only [runOn, ExceptT.run_bind, StateT.run_bind]
  cases h : (x.run.run s : Except ε α × σ) with
  | mk answer s' =>
    cases answer with
    | error e => rfl
    | ok a => rfl

@[simp] theorem runOn_map (x : Fallible ε σ α) (f : α → β) (s : σ) :
    runOn (f <$> x) s = match runOn x s with
      | (.ok a, s') => (.ok (f a), s')
      | (.error e, s') => (.error e, s') := by
  rw [← bind_pure_comp, runOn_bind]
  rfl

@[simp] theorem runOn_get (s : σ) : runOn (get : Fallible ε σ σ) s = (.ok s, s) := rfl

@[simp] theorem runOn_set (s' s : σ) : runOn (set s' : Fallible ε σ PUnit) s = (.ok ⟨⟩, s') := rfl

@[simp] theorem runOn_modify (f : σ → σ) (s : σ) :
    runOn (modify f : Fallible ε σ PUnit) s = (.ok ⟨⟩, f s) := rfl

@[simp] theorem runOn_attempt (x : Fallible ε σ α) (s : σ) :
    runOn x.attempt s = (.ok (runOn x s).1, (runOn x s).2) := rfl

@[simp] theorem runOn_settle (answer : Except ε α) (s : σ) :
    runOn (settle answer : Fallible ε σ α) s = (answer, s) := by
  cases answer <;> rfl

@[simp] theorem mapError_ok {ε' : Type} (a : α) (f : ε → ε') :
    (Except.ok a : Except ε α).mapError f = .ok a := rfl

@[simp] theorem mapError_error {ε' : Type} (fault : ε) (f : ε → ε') :
    (Except.error fault : Except ε α).mapError f = .error (f fault) := rfl

@[simp] theorem runOn_zoom {ε' τ : Type} (part : τ → σ) (put : τ → σ → τ) (fault : ε → ε')
    (x : Fallible ε σ α) (whole : τ) :
    runOn (x.zoom part put fault) whole =
      ((runOn x (part whole)).1.mapError fault, put whole (runOn x (part whole)).2) := rfl

end Fallible

end TraceRecorder
